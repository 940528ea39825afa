/-
  ServiceRegistry.Proofs.Scrape.Ownership

  Which files a writing leaves as they are. Files written here begin with the marker line, and
  only such files are emptied when their groups are no more. Whether a file begins with it is
  not looked at when the file of a group is written, so a file that somebody else has put under
  the name of a group is lost; every other file of somebody else is kept.

  Writing is a sequence of steps, and any of them may fail and end it. `Leaves` is what each
  step guarantees for one path and `Leaves.andThen` carries it along the sequence, whichever
  step was the last.
-/
import ServiceRegistry.Scrape.Files

namespace ServiceRegistry.Scrape

/-! ## First lines -/

/-- The first line of a file, if the file is text and not empty. -/
def firstLine? (content : List UInt8) : Option String :=
  (Text.ofUtf8? content).bind fun text => (Text.lines text).head?

/-- No file that begins with the marker line. -/
def Foreign (node : Option Node) : Prop :=
  ∀ content, node = some (.file content) → firstLine? content ≠ some marker

section

variable {fs : FileSystem} {path : String}

theorem foreign_file {content : List UInt8} (h : firstLine? content ≠ some marker) :
    Foreign (some (.file content)) := by
  rintro _ ⟨⟩
  exact h

theorem isOurs_eq_false (h : Foreign (fs.get? path)) : isOurs fs path = false := by
  unfold isOurs FileSystem.readText
  cases hnode : fs.get? path with
  | none => rfl
  | some node =>
    cases node with
    | directory => rfl
    | file content =>
      have hfirst : firstLine? content ≠ some marker := h content hnode
      dsimp only
      cases htext : Text.ofUtf8? content with
      | none => rfl
      | some text =>
        rw [firstLine?, htext, Option.bind_some] at hfirst
        exact beq_eq_false_iff_ne.2 hfirst

/-! ## Steps that leave a path alone -/

/-- A step leaves a node where it is, if that is where it finds it. -/
def Leaves (path : String) (node : Option Node) (step : FileSystem → Written) : Prop :=
  ∀ fs, fs.get? path = node → (step fs).2.get? path = node

variable {node : Option Node}

theorem Leaves.andThen {first next : FileSystem → Written} (hfirst : Leaves path node first)
    (hnext : Leaves path node next) : Leaves path node fun fs => (first fs).andThen next := by
  intro fs hfs
  have hkept := hfirst fs hfs
  show ((first fs).andThen next).2.get? path = node
  generalize first fs = written at hkept
  obtain ⟨result, later⟩ := written
  cases result with
  | ok u => exact hnext later hkept
  | error e => exact hkept

theorem leaves_done : Leaves path node fun fs => (.ok (), fs) := fun _ hfs => hfs

theorem get?_of_write {other : String} {content : List UInt8} {later : FileSystem}
    (hne : path ≠ other) (h : fs.write other content = .ok later) :
    later.get? path = fs.get? path := by
  unfold FileSystem.write at h
  -- Only the last branch writes, and it puts the file at the other path.
  split at h
  · cases h
  · cases h
  · split at h
    · cases h
    · split at h
      · cases h
      · cases h
        rw [FileSystem.get?_put, if_neg hne]

theorem leaves_writeText {other : String} (hne : path ≠ other) (text : String) :
    Leaves path node (writeText other text) := by
  intro fs hfs
  unfold writeText
  cases hwrite : fs.write other (Text.utf8 text) with
  | ok later => exact (get?_of_write hne hwrite).trans hfs
  | error e => exact hfs

/-! ## The parts of a writing -/

variable (layout : Layout)

theorem leaves_writeTargets {groups : List ScrapeGroup}
    (h : ∀ g ∈ groups, path ≠ layout.targetFile g.name) :
    Leaves path node (layout.writeTargets groups) := by
  induction groups with
  | nil => exact leaves_done
  | cons g gs ih =>
    obtain ⟨hg, hgs⟩ := List.forall_mem_cons.1 h
    exact (leaves_writeText hg (targetsText g)).andThen (ih hgs)

/-- What is emptied begins with the marker line, so it lies elsewhere. -/
theorem leaves_blankAmong (groups : List ScrapeGroup) (names : List String)
    (hforeign : Foreign node) : Leaves path node (layout.blankAmong groups names) := by
  induction names with
  | nil => exact leaves_done
  | cons name names ih =>
    intro fs hfs
    unfold Layout.blankAmong
    split
    case isTrue hvanished =>
      have hours : isOurs fs (FileSystem.inside layout.directory name) = true := by
        unfold Layout.isVanished at hvanished
        split at hvanished
        · cases hvanished
        · exact (Bool.and_eq_true_iff.1 hvanished).2
      have hne : path ≠ FileSystem.inside layout.directory name := by
        rintro rfl
        rw [isOurs_eq_false (hfs ▸ hforeign)] at hours
        cases hours
      exact ((leaves_writeText hne vanishedText).andThen ih) fs hfs
    case isFalse => exact ih fs hfs

theorem leaves_blankVanished (groups : List ScrapeGroup) (hforeign : Foreign node) :
    Leaves path node (layout.blankVanished groups) := by
  intro fs hfs
  unfold Layout.blankVanished
  cases fs.list layout.directory with
  | error e => exact hfs
  | ok names => exact leaves_blankAmong layout groups names hforeign fs hfs

theorem leaves_writeConfig (groups : List ScrapeGroup) (hconfig : layout.config ≠ some path) :
    Leaves path node (layout.writeConfig groups) := by
  intro fs hfs
  unfold Layout.writeConfig
  cases hother : layout.config with
  | none => exact hfs
  | some other =>
    have hne : path ≠ other := by
      rintro rfl
      exact hconfig hother
    dsimp only
    cases layout.templateText fs with
    | error e => exact hfs
    | ok text => exact leaves_writeText hne _ fs hfs

/-- A path that is neither the configuration nor the file of a group leads to the same after a
    writing as before, unless a file that begins with the marker line is there. -/
theorem leaves_write {groups : List ScrapeGroup} (hforeign : Foreign node)
    (htargets : ∀ g ∈ groups, isPlainName g.name = true → path ≠ layout.targetFile g.name)
    (hconfig : layout.config ≠ some path) : Leaves path node (layout.write groups) := by
  have hplain : ∀ g ∈ groups.filter (isPlainName ·.name), path ≠ layout.targetFile g.name := by
    intro g hg
    obtain ⟨hmem, hname⟩ := List.mem_filter.1 hg
    exact htargets g hmem hname
  exact ((leaves_writeTargets layout hplain).andThen
    (leaves_blankVanished layout _ hforeign)).andThen (leaves_writeConfig layout _ hconfig)

end

/-! ## Files of others -/

/-- Whatever else is in the directory and wherever the writing ends, a file that did not begin
    with the marker line before it has the same content after it, unless it is the configuration
    or has the name of a group that is written. -/
theorem foreign_file_kept (layout : Layout) (groups : List ScrapeGroup) (fs : FileSystem)
    (path : String) (content : List UInt8) (hfile : fs.get? path = some (.file content))
    (hforeign : firstLine? content ≠ some marker)
    (htargets : ∀ g ∈ groups, isPlainName g.name = true → path ≠ layout.targetFile g.name)
    (hconfig : layout.config ≠ some path) :
    (layout.write groups fs).2.get? path = some (.file content) :=
  leaves_write layout (foreign_file hforeign) htargets hconfig fs hfile

/-- Between a file of a group that is written and one of a group that is no more, a file of
    somebody else is kept. -/
theorem foreign_file_kept_among_ours :
    let layout : Layout := { directory := "targets", config := some "prometheus.yml" }
    let content := Text.utf8 "- targets: ['host:9100']\n"
    let fs : FileSystem := ⟨[("targets", .directory),
      ("targets/kv.yaml", .file (Text.utf8 (targetsText ⟨"kv", ["10.0.0.5:9000"]⟩))),
      ("targets/node.yaml", .file content)]⟩
    let groups : List ScrapeGroup := [⟨"web", ["10.0.0.7:443"]⟩, ⟨"../node", ["10.0.0.8:443"]⟩]
    fs.get? "targets/node.yaml" = some (.file content) ∧ firstLine? content ≠ some marker ∧
    (∀ g ∈ groups, isPlainName g.name = true →
      "targets/node.yaml" ≠ layout.targetFile g.name) ∧
    layout.config ≠ some "targets/node.yaml" ∧
    (layout.write groups fs).2.get? "targets/node.yaml" = some (.file content) ∧
    (layout.write groups fs).2.get? "targets/kv.yaml"
      = some (.file (Text.utf8 vanishedText)) := by
  intro layout content fs groups
  have hfile : fs.get? "targets/node.yaml" = some (.file content) := by decide +kernel
  have hforeign : firstLine? content ≠ some marker := by decide +kernel
  have htargets : ∀ g ∈ groups, isPlainName g.name = true →
      "targets/node.yaml" ≠ layout.targetFile g.name := by decide +kernel
  have hconfig : layout.config ≠ some "targets/node.yaml" := by decide
  have hkept := foreign_file_kept layout groups fs _ content hfile hforeign htargets hconfig
  exact ⟨hfile, hforeign, htargets, hconfig, hkept, by decide +kernel⟩

/-- A file of somebody else with the name of a group is overwritten. -/
theorem foreign_file_overwritten :
    let layout : Layout := { directory := "targets" }
    let content := Text.utf8 "- targets: ['host:9100']\n"
    let fs : FileSystem := ⟨[("targets", .directory), ("targets/kv.yaml", .file content)]⟩
    let written := layout.write [⟨"kv", ["10.0.0.5:9000"]⟩] fs
    fs.get? "targets/kv.yaml" = some (.file content) ∧ firstLine? content ≠ some marker ∧
    written.1.isOk = true ∧ written.2.get? "targets/kv.yaml" ≠ some (.file content) := by
  decide +kernel

end ServiceRegistry.Scrape
