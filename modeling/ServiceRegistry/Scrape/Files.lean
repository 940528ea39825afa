/-
  ServiceRegistry.Scrape.Files

  The files that tell a scraper what to scrape: one file of addresses for each group, and
  perhaps a configuration that is a template followed by one job for each group. Files
  written here begin with a marker line; a file without it is not emptied.
-/
import ServiceRegistry.Inventory.Views
import ServiceRegistry.Scrape.FileSystem
import ServiceRegistry.Yaml.Block

namespace ServiceRegistry.Scrape

/-! ## Layout -/

/-- Where the files are. -/
structure Layout where
  directory : String
  template : Option String := none
  config : Option String := none
  deriving DecidableEq, Repr

/-- The first line of the files written here. -/
def marker : String := "# this yaml file was written by the registry"

/-- A name that can be a file name: letters, digits, underscores and hyphens. -/
def isPlainName (name : String) : Bool :=
  name ≠ "" && name.toList.all fun c => c.isAlphanum || c == '_' || c == '-'

/-- The ending of the names of the files written here. -/
def ending : String := ".yaml"

/-- The path of the file of a group. -/
def Layout.targetFile (layout : Layout) (name : String) : String :=
  FileSystem.inside layout.directory (name ++ ending)

/-! ## Contents -/

/-- The list of the addresses of a group. -/
def targetsDocument (g : ScrapeGroup) : Yaml :=
  .list [.map [("targets", .list (g.addresses.map .text))]]

/-- The content of the file of a group. -/
def targetsText (g : ScrapeGroup) : String := marker ++ "\n" ++ (targetsDocument g).render

/-- The content of the file of a group that is no more. -/
def vanishedText : String := marker ++ "\n"

/-- The job that scrapes a group. -/
def Layout.job (layout : Layout) (g : ScrapeGroup) : Yaml :=
  .map [("job_name", .text g.name), ("metrics_path", .text "/internal/service-info/metrics"),
    ("scheme", .text "https"), ("tls_config", .map [("insecure_skip_verify", .flag true)]),
    ("file_sd_configs", .list [.map [("files", .list [.text (layout.targetFile g.name)])]])]

/-- The lines of the jobs, each indented to stand below the last key of a template. -/
def Layout.jobsText (layout : Layout) (groups : List ScrapeGroup) : String :=
  if groups = [] then ""
  else
    String.join ((Text.lines (Yaml.list (groups.map layout.job)).render).map fun line =>
      "  " ++ line ++ "\n")

/-! ## Writing -/

/-- What an attempt to write has left behind; what was written before an error stays. -/
abbrev Written : Type := Except FileError Unit × FileSystem

/-- Continues unless there was an error. -/
def Written.andThen (w : Written) (next : FileSystem → Written) : Written :=
  match w with
  | (.ok (), fs) => next fs
  | (.error e, fs) => (.error e, fs)

/-- Writes one file. -/
def writeText (path text : String) (fs : FileSystem) : Written :=
  match fs.write path (Text.utf8 text) with
  | .ok fs => (.ok (), fs)
  | .error e => (.error e, fs)

/-- Writes the files of some groups. -/
def Layout.writeTargets (layout : Layout) : List ScrapeGroup → FileSystem → Written
  | [], fs => (.ok (), fs)
  | g :: gs, fs =>
    Written.andThen (writeText (layout.targetFile g.name) (targetsText g) fs)
      (layout.writeTargets gs)

/-- A file was written here. -/
def isOurs (fs : FileSystem) (path : String) : Bool :=
  match fs.readText path with
  | .ok text => (Text.lines text).head? == some marker
  | .error _ => false

/-- A file of the directory belongs to a group that is no more. -/
def Layout.isVanished (layout : Layout) (groups : List ScrapeGroup) (fs : FileSystem)
    (fileName : String) : Bool :=
  match Text.dropEnding? ending fileName with
  | none => false
  | some name =>
    !groups.any (·.name == name) && isOurs fs (FileSystem.inside layout.directory fileName)

/-- Empties the files of groups that are no more, among files of the given names. -/
def Layout.blankAmong (layout : Layout) (groups : List ScrapeGroup) :
    List String → FileSystem → Written
  | [], fs => (.ok (), fs)
  | name :: names, fs =>
    if layout.isVanished groups fs name then
      Written.andThen (writeText (FileSystem.inside layout.directory name) vanishedText fs)
        (layout.blankAmong groups names)
    else layout.blankAmong groups names fs

/-- Empties the files of groups that are no more. -/
def Layout.blankVanished (layout : Layout) (groups : List ScrapeGroup) (fs : FileSystem) :
    Written :=
  match fs.list layout.directory with
  | .error e => (.error e, fs)
  | .ok names => layout.blankAmong groups names fs

/-- The text before the jobs. -/
def Layout.templateText (layout : Layout) (fs : FileSystem) : Except FileError String :=
  match layout.template with
  | none => .ok ""
  | some path => fs.readText path

/-- Writes the configuration, if there is to be one. -/
def Layout.writeConfig (layout : Layout) (groups : List ScrapeGroup) (fs : FileSystem) : Written :=
  match layout.config with
  | none => (.ok (), fs)
  | some path =>
    match layout.templateText fs with
    | .error e => (.error e, fs)
    | .ok text => writeText path (text ++ layout.jobsText groups) fs

/-- Brings all files up to date with the groups. Groups whose names cannot be file names
are left out. -/
def Layout.write (layout : Layout) (groups : List ScrapeGroup) (fs : FileSystem) : Written :=
  let plain := groups.filter (isPlainName ·.name)
  Written.andThen
    (Written.andThen (layout.writeTargets plain fs) (layout.blankVanished plain))
    (layout.writeConfig plain)

end ServiceRegistry.Scrape
