/-
  ServiceRegistry.Proofs.Scrape.Upkeep

  What is there after a writing that went through. It has written three lists of drafts, one after
  the other: the files of the groups, then what is emptied, and last the configuration
  (`Completed`). The names of groups are distinct and the configuration lies elsewhere, so no list
  overwrites what another has written.

  Which files are emptied is read from the directory after the files of the groups have been
  written. Emptying a file does not change whose it is, so it makes no difference that the rest is
  read later (`blankAmong_eq`); and what begins with the marker line afterwards was written by
  this writing (`Completed.written_of_ours`). Hence a second writing finds all as it would have it.
-/
import ServiceRegistry.Proofs.Inventory.Shown
import ServiceRegistry.Proofs.Scrape.Drafts
import ServiceRegistry.Proofs.Text.Segments

namespace ServiceRegistry.Scrape

open FileSystem (inside)

/-! ## Paths -/

section

variable {layout : Layout} {a b : String}

theorem inside_inj {directory : String} : inside directory a = inside directory b ↔ a = b :=
  String.append_right_inj (directory ++ "/")

theorem targetFile_inj : layout.targetFile a = layout.targetFile b ↔ a = b :=
  inside_inj.trans (String.append_left_inj ending)

/-- What lies in a directory, by its name. -/
theorem mem_names {fs : FileSystem} {directory name : String} :
    name ∈ fs.names directory ↔
      '/' ∉ name.toList ∧ (fs.get? (inside directory name)).isSome = true := by
  have hbeginning : ∀ path rest, Text.dropBeginning? (inside directory "") path = some rest ↔
      path = inside directory rest := by
    intro path rest
    rw [Text.dropBeginning?_eq_some_iff, inside, inside, String.append_empty]
  have hnode : (fs.get? (inside directory name)).isSome = true ↔
      ∃ x ∈ fs.nodes, x.1 = inside directory name := by
    rw [FileSystem.get?, List.lookup_isSome_iff]
    refine exists_congr fun x => and_congr_right fun _ => ?_
    rw [beq_iff_eq, eq_comm]
  simp only [FileSystem.names, List.mem_filterMap, Option.filter_eq_some_iff, hbeginning,
    hnode, Bool.not_eq_true', List.contains_eq_mem, decide_eq_false_iff_not]
  constructor
  · rintro ⟨x, hx, hpath, hfree⟩
    exact ⟨hfree, x, hx, hpath⟩
  · rintro ⟨hfree, x, hx, hpath⟩
    exact ⟨x, hx, hpath, hfree⟩

end

/-! ## Whose a file is -/

section

variable {layout : Layout} {groups : List ScrapeGroup} {fs : FileSystem} {path : String}

theorem isOurs_iff :
    isOurs fs path = true ↔
      ∃ content, fs.get? path = some (.file content) ∧ firstLine? content = some marker := by
  unfold isOurs FileSystem.readText
  cases fs.get? path with
  | none =>
    refine iff_of_false Bool.false_ne_true ?_
    rintro ⟨content, hnone, -⟩
    cases hnone
  | some node =>
    cases node with
    | directory =>
      refine iff_of_false Bool.false_ne_true ?_
      rintro ⟨content, hsome, -⟩
      cases hsome
    | file content =>
      simp only [Option.some.injEq, Node.file.injEq, exists_eq_left', firstLine?]
      cases Text.ofUtf8? content with
      | none => simp only [Option.bind_none, reduceCtorEq]
      | some text => exact beq_iff_eq

theorem firstLine?_vanishedText : firstLine? (Text.utf8 vanishedText) = some marker := by
  rw [firstLine?, Text.ofUtf8?_utf8]
  decide +kernel

theorem isVanished_iff {fileName : String} :
    layout.isVanished groups fs fileName = true ↔
      ∃ name, fileName = name ++ ending ∧ (∀ g ∈ groups, g.name ≠ name) ∧
        ∃ content, fs.get? (layout.targetFile name) = some (.file content) ∧
          firstLine? content = some marker := by
  unfold Layout.isVanished
  cases hname : Text.dropEnding? ending fileName with
  | none =>
    refine iff_of_false Bool.false_ne_true ?_
    rintro ⟨name, hfile, -⟩
    rw [Text.dropEnding?_eq_some_iff.2 hfile] at hname
    cases hname
  | some name =>
    obtain rfl := Text.dropEnding?_eq_some_iff.1 hname
    simp only [Bool.and_eq_true, Bool.not_eq_true', List.any_eq_false, beq_iff_eq, isOurs_iff]
    constructor
    · rintro ⟨hgone, hours⟩
      exact ⟨name, rfl, hgone, hours⟩
    · rintro ⟨other, hfile, hgone, hours⟩
      obtain rfl : name = other := (String.append_left_inj ending).1 hfile
      exact ⟨hgone, hours⟩

/-- To empty a file that was written here changes no answer to whose a file is. -/
theorem isOurs_put (h : isOurs fs path = true) :
    isOurs (fs.put path (.file (Text.utf8 vanishedText))) = isOurs fs := by
  funext other
  rw [Bool.eq_iff_iff]
  by_cases hother : other = path
  · subst hother
    refine iff_of_true (isOurs_iff.2 ⟨_, ?_, firstLine?_vanishedText⟩) h
    rw [FileSystem.get?_put, if_pos rfl]
  · rw [isOurs_iff, isOurs_iff, FileSystem.get?_put, if_neg hother]

end

/-! ## A writing as lists of drafts -/

namespace Layout

variable (layout : Layout) (groups : List ScrapeGroup)

/-- The files of groups. -/
def targetDrafts : List Draft :=
  groups.map fun g => ⟨layout.targetFile g.name, targetsText g⟩

/-- What is emptied among files of the given names. -/
def blankDrafts (fs : FileSystem) (names : List String) : List Draft :=
  (names.filter (layout.isVanished groups fs)).map fun name =>
    ⟨inside layout.directory name, vanishedText⟩

/-- A writing that went through, with what was there after the files of the groups had been
    written and before the configuration was. -/
structure Completed (fs mid left later : FileSystem) : Prop where
  targets : Draft.writeAll (layout.targetDrafts groups) fs = (.ok (), mid)
  found : mid.get? layout.directory = some .directory
  blanks : Draft.writeAll (layout.blankDrafts groups mid (mid.names layout.directory)) mid
    = (.ok (), left)
  config : layout.writeConfig groups left = (.ok (), later)

variable {layout groups}

theorem writeTargets_eq :
    layout.writeTargets groups = Draft.writeAll (layout.targetDrafts groups) := by
  induction groups with
  | nil => rfl
  | cons g gs ih =>
    funext fs
    rw [writeTargets, ih]
    rfl

theorem blankAmong_eq (names : List String) (fs : FileSystem) :
    layout.blankAmong groups names fs = Draft.writeAll (layout.blankDrafts groups fs names) fs := by
  induction names generalizing fs with
  | nil => rfl
  | cons name names ih =>
    unfold blankAmong blankDrafts
    rw [List.filter_cons]
    split
    case isTrue hvanished =>
      rw [List.map_cons, Draft.writeAll]
      have hours : isOurs fs (inside layout.directory name) = true := by
        obtain ⟨_, rfl, -, hours⟩ := isVanished_iff.1 hvanished
        exact isOurs_iff.2 hours
      have hsame : layout.isVanished groups
          (fs.put (inside layout.directory name) (.file (Text.utf8 vanishedText)))
            = layout.isVanished groups fs := by
        funext other
        unfold isVanished
        rw [isOurs_put hours]
      cases hwritten : writeText (inside layout.directory name) vanishedText fs with
      | mk result after =>
        cases result with
        | error e => rfl
        | ok u =>
          obtain ⟨-, rfl⟩ := Draft.writeText_eq_ok_iff.1 hwritten
          show layout.blankAmong groups names _ = Draft.writeAll _ _
          rw [ih, blankDrafts, hsame]
    case isFalse => exact ih fs

theorem writeConfig_eq_ok_iff {fs later : FileSystem} :
    layout.writeConfig groups fs = (.ok (), later) ↔
      (layout.config = none ∧ later = fs) ∨
      ∃ path text, layout.config = some path ∧ layout.templateText fs = .ok text ∧
        Draft.writeAll [⟨path, text ++ layout.jobsText groups⟩] fs = (.ok (), later) := by
  unfold writeConfig
  cases layout.config with
  | none => simp [eq_comm]
  | some path =>
    cases layout.templateText fs with
    | error e => simp
    | ok text => simp [Draft.writeAll, Draft.andThen_eq_ok_iff]

/-- What is emptied are the files of the directory that begin with the marker line and belong to
    no group. -/
theorem mem_blankDrafts {fs : FileSystem} {d : Draft} :
    d ∈ layout.blankDrafts groups fs (fs.names layout.directory) ↔
      ∃ name, d = ⟨layout.targetFile name, vanishedText⟩ ∧ '/' ∉ name.toList ∧
        (∀ g ∈ groups, g.name ≠ name) ∧
        ∃ content, fs.get? (layout.targetFile name) = some (.file content) ∧
          firstLine? content = some marker := by
  have hending : ∀ name : String, '/' ∉ (name ++ ending).toList ↔ '/' ∉ name.toList := by
    intro name
    rw [String.toList_append, List.mem_append, not_or]
    exact and_iff_left (by decide)
  simp only [blankDrafts, List.mem_map, List.mem_filter, isVanished_iff, mem_names]
  constructor
  · rintro ⟨_, ⟨⟨hfree, -⟩, name, rfl, hgone, hours⟩, rfl⟩
    exact ⟨name, rfl, (hending name).1 hfree, hgone, hours⟩
  · rintro ⟨name, rfl, hfree, hgone, content, hnode, hours⟩
    exact ⟨_, ⟨⟨(hending name).2 hfree, Option.isSome_iff_exists.2 ⟨_, hnode⟩⟩,
      name, rfl, hgone, content, hnode, hours⟩, rfl⟩

theorem write_eq_ok_iff {fs later : FileSystem} :
    layout.write groups fs = (.ok (), later) ↔
      ∃ mid left, layout.Completed (groups.filter (isPlainName ·.name)) fs mid left later := by
  unfold write
  simp only [Draft.andThen_eq_ok_iff, writeTargets_eq]
  constructor
  · rintro ⟨left, ⟨mid, htargets, hblanks⟩, hconfig⟩
    unfold blankVanished FileSystem.list at hblanks
    split at hblanks
    case h_1 => cases hblanks
    case h_2 names hnames =>
      split at hnames
      case h_3 hfound =>
        cases hnames
        rw [blankAmong_eq] at hblanks
        exact ⟨mid, left, htargets, hfound, hblanks, hconfig⟩
      all_goals cases hnames
  · rintro ⟨mid, left, htargets, hfound, hblanks, hconfig⟩
    refine ⟨left, ⟨mid, htargets, ?_⟩, hconfig⟩
    unfold blankVanished FileSystem.list
    rw [hfound]
    dsimp only
    rw [blankAmong_eq, hblanks]

/-! ## After a writing -/

namespace Completed

variable {fs mid left later : FileSystem} (h : layout.Completed groups fs mid left later)

include h

/-- The last of the three lists has the configuration only. -/
theorem exists_configDrafts :
    ∃ ds, Draft.writeAll ds left = (.ok (), later) ∧ ∀ d ∈ ds, layout.config = some d.path := by
  rcases writeConfig_eq_ok_iff.1 h.config with ⟨-, rfl⟩ | ⟨path, _, hpath, -, hwritten⟩
  · exact ⟨[], rfl, nofun⟩
  · refine ⟨_, hwritten, fun d hd => ?_⟩
    rw [List.mem_singleton.1 hd, hpath]

theorem get?_of_ne_config {path : String} (hpath : layout.config ≠ some path) :
    later.get? path = left.get? path := by
  obtain ⟨ds, hwritten, hds⟩ := h.exists_configDrafts
  refine Draft.get?_of_not_mem hwritten fun d hd heq => hpath ?_
  rw [hds d hd, heq]

theorem found_later : later.get? layout.directory = some .directory := by
  obtain ⟨ds, hwritten, -⟩ := h.exists_configDrafts
  exact Draft.directory_kept hwritten (Draft.directory_kept h.blanks h.found)

/-- Where something was written, something can be written still. -/
theorem writable_of_mem {d : Draft} (hd : d ∈ layout.targetDrafts groups ∨
    d ∈ layout.blankDrafts groups mid (mid.names layout.directory)) : later.Writable d.path := by
  obtain ⟨ds, hwritten, -⟩ := h.exists_configDrafts
  refine Draft.writable_kept hwritten ?_
  rcases hd with hd | hd
  · exact Draft.writable_kept h.blanks (Draft.writable_of_mem h.targets hd)
  · exact Draft.writable_of_mem h.blanks hd

section

variable (hconfig : ∀ path, layout.config = some path → ∀ name, path ≠ inside layout.directory name)

include hconfig

theorem get?_inside (name : String) :
    later.get? (inside layout.directory name) = left.get? (inside layout.directory name) :=
  h.get?_of_ne_config fun hpath => hconfig _ hpath name rfl

/-- Groups have their files. -/
theorem get?_targetFile (hnames : (groups.map (·.name)).Nodup) {g : ScrapeGroup}
    (hg : g ∈ groups) :
    later.get? (layout.targetFile g.name) = some (.file (Text.utf8 (targetsText g))) := by
  have hmem : ⟨layout.targetFile g.name, targetsText g⟩ ∈ layout.targetDrafts groups :=
    List.mem_map.2 ⟨g, hg, rfl⟩
  have hmid := Draft.get?_of_mem h.targets hmem (by
    intro d hd heq
    obtain ⟨other, hother, rfl⟩ := List.mem_map.1 hd
    have hsame : other = g :=
      List.inj_on_of_nodup_map hnames hother hg (targetFile_inj.1 heq)
    rw [hsame])
  have hleft : left.get? (layout.targetFile g.name) = mid.get? (layout.targetFile g.name) := by
    refine Draft.get?_of_not_mem h.blanks fun d hd heq => ?_
    obtain ⟨name, rfl, -, hgone, -⟩ := mem_blankDrafts.1 hd
    exact hgone g hg (targetFile_inj.1 heq.symm)
  exact (h.get?_inside hconfig _).trans (hleft.trans hmid)

theorem get?_of_mem_blankDrafts {d : Draft}
    (hd : d ∈ layout.blankDrafts groups mid (mid.names layout.directory)) :
    later.get? d.path = some d.node := by
  have hleft := Draft.get?_of_mem h.blanks hd (by
    intro e he _
    obtain ⟨_, rfl, -⟩ := mem_blankDrafts.1 he
    obtain ⟨_, rfl, -⟩ := mem_blankDrafts.1 hd
    rfl)
  obtain ⟨name, rfl, -⟩ := mem_blankDrafts.1 hd
  exact (h.get?_inside hconfig _).trans hleft

/-- What begins with the marker line and is the file of no group has been emptied. -/
theorem emptied_of_ours {name : String} {content : List UInt8} (hfree : '/' ∉ name.toList)
    (hgone : ∀ g ∈ groups, g.name ≠ name)
    (hnode : later.get? (layout.targetFile name) = some (.file content))
    (hours : firstLine? content = some marker) :
    ⟨layout.targetFile name, vanishedText⟩
      ∈ layout.blankDrafts groups mid (mid.names layout.directory) := by
  by_contra hkept
  have hleft : left.get? (layout.targetFile name) = mid.get? (layout.targetFile name) := by
    refine Draft.get?_of_not_mem h.blanks fun d hd heq => hkept ?_
    obtain ⟨other, rfl, -⟩ := mem_blankDrafts.1 hd
    rwa [← heq]
  have hmid : mid.get? (layout.targetFile name) = some (.file content) :=
    hleft.symm.trans ((h.get?_inside hconfig _).symm.trans hnode)
  exact hkept (mem_blankDrafts.2 ⟨name, rfl, hfree, hgone, content, hmid, hours⟩)

omit hconfig in
/-- A path that leads elsewhere than before is the file of a group, a file of the directory that
    began with the marker line, or the configuration. -/
theorem changed {path : String} (hpath : later.get? path ≠ fs.get? path) :
    (∃ g ∈ groups, path = layout.targetFile g.name) ∨
    (∃ name content, '/' ∉ name.toList ∧ path = layout.targetFile name ∧
      fs.get? path = some (.file content) ∧ firstLine? content = some marker) ∨
    layout.config = some path := by
  by_contra hnone
  obtain ⟨htargets, hrest⟩ := not_or.1 hnone
  obtain ⟨hblanks, hconfig⟩ := not_or.1 hrest
  have hmid : mid.get? path = fs.get? path := by
    refine Draft.get?_of_not_mem h.targets fun d hd heq => htargets ?_
    obtain ⟨g, hg, rfl⟩ := List.mem_map.1 hd
    exact ⟨g, hg, heq.symm⟩
  have hleft : left.get? path = mid.get? path := by
    refine Draft.get?_of_not_mem h.blanks fun d hd heq => hblanks ?_
    obtain ⟨name, rfl, hfree, -, content, hnode, hours⟩ := mem_blankDrafts.1 hd
    obtain rfl : layout.targetFile name = path := heq
    exact ⟨name, content, hfree, rfl, hmid.symm.trans hnode, hours⟩
  exact hpath ((h.get?_of_ne_config hconfig).trans (hleft.trans hmid))

/-- A second writing finds all as it would have it. -/
theorem again (hnames : (groups.map (·.name)).Nodup)
    (htemplate : ∀ path, layout.config = some path → layout.template ≠ some path) :
    layout.Completed groups later later later later where
  targets := by
    refine Draft.writeAll_again fun d hd => ⟨h.writable_of_mem (.inl hd), ?_⟩
    obtain ⟨g, hg, rfl⟩ := List.mem_map.1 hd
    exact h.get?_targetFile hconfig hnames hg
  found := h.found_later
  blanks := by
    refine Draft.writeAll_again fun d hd => ?_
    obtain ⟨name, rfl, hfree, hgone, content, hnode, hours⟩ :=
      mem_blankDrafts.1 hd
    have hd := h.emptied_of_ours hconfig hfree hgone hnode hours
    exact ⟨h.writable_of_mem (.inr hd), h.get?_of_mem_blankDrafts hconfig hd⟩
  config := by
    refine writeConfig_eq_ok_iff.2 ?_
    rcases writeConfig_eq_ok_iff.1 h.config with
      ⟨hnone, -⟩ | ⟨path, text, hpath, htext, hwritten⟩
    · exact .inl ⟨hnone, rfl⟩
    · have hsame : layout.templateText later = layout.templateText left := by
        unfold templateText
        cases hother : layout.template with
        | none => rfl
        | some other =>
          have hne : layout.config ≠ some other := fun hother' => htemplate _ hother' hother
          dsimp only
          rw [FileSystem.readText, FileSystem.readText, h.get?_of_ne_config hne]
      refine .inr ⟨path, text, hpath, hsame.trans htext, Draft.writeAll_again fun d hd => ?_⟩
      refine ⟨Draft.writable_of_mem hwritten hd, Draft.get?_of_mem hwritten hd fun e he _ => ?_⟩
      rw [List.mem_singleton.1 hd, List.mem_singleton.1 he]

end

end Completed

end Layout

/-! ## Every inventory and every directory -/

theorem isPlainName_iff {name : String} : isPlainName name = true ↔
    name ≠ "" ∧ ∀ c ∈ name.toList, c.isAlphanum = true ∨ c = '_' ∨ c = '-' := by
  simp [isPlainName, or_assoc]

/-- A writing of the groups of an inventory that goes through, whatever was there before, with a
    configuration outside the directory that is not its own template:

    A text file of the directory with the ending and the marker line has below this line the list
    of the addresses of the group of its name, or nothing if there is no group of this name or the
    name is not plain. Every group with a plain name, of letters, digits, underscores and hyphens,
    has its file, with the marker line and the list of its addresses.

    What leads elsewhere than before is the file of such a group, a file of the directory with the
    ending that began with the marker line, or the configuration. A second writing changes
    nothing. -/
theorem write_upToDate (inv : Inventory) (layout : Layout) (fs later : FileSystem)
    (hconfig : ∀ path, layout.config = some path →
      ∀ name, path ≠ layout.directory ++ "/" ++ name)
    (htemplate : ∀ path, layout.config = some path → layout.template ≠ some path)
    (h : layout.write inv.scrapeGroups fs = (.ok (), later)) :
    let file (name : String) : String := layout.directory ++ "/" ++ (name ++ ".yaml")
    let listed (g : ScrapeGroup) : List UInt8 := Text.utf8 (marker ++ "\n" ++
      (Yaml.list [.map [("targets", .list (g.addresses.map .text))]]).render)
    let plain (name : String) : Prop :=
      name ≠ "" ∧ ∀ c ∈ name.toList, c.isAlphanum = true ∨ c = '_' ∨ c = '-'
    (∀ name content, '/' ∉ name.toList → later.get? (file name) = some (.file content) →
      firstLine? content = some marker →
      (∃ g ∈ inv.scrapeGroups, g.name = name ∧ plain name ∧ content = listed g) ∨
      ((∀ g ∈ inv.scrapeGroups, g.name = name → ¬ plain name) ∧
        content = Text.utf8 (marker ++ "\n"))) ∧
    (∀ g ∈ inv.scrapeGroups, plain g.name →
      later.get? (file g.name) = some (.file (listed g))) ∧
    (∀ path, later.get? path ≠ fs.get? path →
      (∃ g ∈ inv.scrapeGroups, plain g.name ∧ path = file g.name) ∨
      (∃ name content, '/' ∉ name.toList ∧ path = file name ∧
        fs.get? path = some (.file content) ∧ firstLine? content = some marker) ∨
      layout.config = some path) ∧
    layout.write inv.scrapeGroups later = (.ok (), later) := by
  intro file listed plain
  obtain ⟨mid, left, hdone⟩ := Layout.write_eq_ok_iff.1 h
  have hnames : ((inv.scrapeGroups.filter (isPlainName ·.name)).map (·.name)).Nodup := by
    refine List.Nodup.sublist (List.filter_sublist.map _) ?_
    rw [Inventory.scrapeGroups_eq]
    exact ScrapeGroup.gathered_names_nodup _
  have hwritten : ∀ {g}, g ∈ inv.scrapeGroups.filter (isPlainName ·.name) ↔
      g ∈ inv.scrapeGroups ∧ plain g.name :=
    List.mem_filter.trans (and_congr_right fun _ => isPlainName_iff)
  have hfiles : ∀ g ∈ inv.scrapeGroups, plain g.name →
      later.get? (file g.name) = some (.file (listed g)) :=
    fun g hg hplain => hdone.get?_targetFile hconfig hnames (hwritten.2 ⟨hg, hplain⟩)
  refine ⟨fun name content hfree hnode hours => ?_, hfiles, fun path hpath => ?_, ?_⟩
  · by_cases hgroup : ∃ g ∈ inv.scrapeGroups, g.name = name ∧ plain name
    · obtain ⟨g, hg, rfl, hplain⟩ := hgroup
      have hsame := hnode.symm.trans (hfiles g hg hplain)
      exact .inl ⟨g, hg, rfl, hplain, Node.file.inj (Option.some.inj hsame)⟩
    · have hgone : ∀ g ∈ inv.scrapeGroups, g.name = name → ¬ plain name :=
        fun g hg hname hplain => hgroup ⟨g, hg, hname, hplain⟩
      have hemptied := hdone.emptied_of_ours hconfig hfree (by
        intro g hg hname
        obtain ⟨hg, hplain⟩ := hwritten.1 hg
        exact hgone g hg hname (hname ▸ hplain)) hnode hours
      have hsame := hnode.symm.trans (hdone.get?_of_mem_blankDrafts hconfig hemptied)
      exact .inr ⟨hgone, Node.file.inj (Option.some.inj hsame)⟩
  · refine (hdone.changed hpath).imp_left ?_
    rintro ⟨g, hg, rfl⟩
    obtain ⟨hg, hplain⟩ := hwritten.1 hg
    exact ⟨g, hg, hplain, rfl⟩
  · exact Layout.write_eq_ok_iff.2 ⟨later, later, hdone.again hconfig hnames htemplate⟩

/-- Two services are scraped under one name and the name of a third leads out of the directory.
    The group of one file is no more, although its lines end with carriage returns; two files are
    somebody else's, one because it is no text. -/
theorem write_upToDate_among_others :
    let layout : Layout :=
      { directory := "targets", template := some "template.yml", config := some "prometheus.yml" }
    let inv : Inventory := ⟨[⟨.named "kv.a", [.enrolled 1 ⟨"10.0.0.5", 9000⟩ [.status] 0]⟩,
      ⟨.named "../web", [.enrolled 2 ⟨"10.0.0.7", 443⟩ [.status] 0]⟩,
      ⟨.named "kv.b", [.enrolled 3 ⟨"10.0.0.6", 9000⟩ [.status] 0]⟩], 3⟩
    let foreign := Text.utf8 "- targets: ['host:9100']\n"
    let noText := Text.utf8 (marker ++ "\n") ++ [0xff]
    let fs : FileSystem := ⟨[("targets", .directory), ("targets/node.yaml", .file foreign),
      ("targets/gone.yaml", .file (Text.utf8 (marker ++ "\r\n- targets:\r\n  - gone:80\r\n"))),
      ("targets/raw.yaml", .file noText),
      ("template.yml", .file (Text.utf8 "scrape_configs:\n"))]⟩
    let later := (layout.write inv.scrapeGroups fs).2
    (∀ path, layout.config = some path → ∀ name, path ≠ layout.directory ++ "/" ++ name) ∧
    (∀ path, layout.config = some path → layout.template ≠ some path) ∧
    layout.write inv.scrapeGroups fs = (.ok (), later) ∧
    later.get? "targets/kv.yaml" = some (.file (Text.utf8
      ("# this yaml file was written by the registry\n"
        ++ "- targets:\n  - 10.0.0.5:9000\n  - 10.0.0.6:9000\n"))) ∧
    later.get? "targets/gone.yaml"
      = some (.file (Text.utf8 "# this yaml file was written by the registry\n")) ∧
    later.get? "targets/node.yaml" = some (.file foreign) ∧
    later.get? "targets/raw.yaml" = some (.file noText) ∧
    later.get? "targets/../web.yaml" = none ∧
    layout.write inv.scrapeGroups later = (.ok (), later) := by
  intro layout inv foreign noText fs later
  have hconfig : ∀ path, layout.config = some path →
      ∀ name, path ≠ layout.directory ++ "/" ++ name := by
    rintro _ ⟨⟩ name heq
    have hfirst := congrArg (·.toList.head?) heq
    simp [layout] at hfirst
  have htemplate : ∀ path, layout.config = some path → layout.template ≠ some path := by
    rintro _ ⟨⟩
    decide
  have h : layout.write inv.scrapeGroups fs = (.ok (), later) := Prod.ext (by decide +kernel) rfl
  obtain ⟨-, hfiles, -, hagain⟩ := write_upToDate inv layout fs later hconfig htemplate h
  let kv : ScrapeGroup := ⟨"kv", ["10.0.0.5:9000", "10.0.0.6:9000"]⟩
  have hkv : later.get? "targets/kv.yaml" = some (.file (Text.utf8 (marker ++ "\n" ++
      (Yaml.list [.map [("targets", .list (kv.addresses.map .text))]]).render))) :=
    hfiles kv (by decide +kernel) (isPlainName_iff.1 (by decide +kernel))
  have hlisted : marker ++ "\n" ++
      (Yaml.list [.map [("targets", .list (kv.addresses.map .text))]]).render =
      "# this yaml file was written by the registry\n"
        ++ "- targets:\n  - 10.0.0.5:9000\n  - 10.0.0.6:9000\n" := by
    decide +kernel
  have hothers : later.get? "targets/gone.yaml"
        = some (.file (Text.utf8 "# this yaml file was written by the registry\n")) ∧
      later.get? "targets/node.yaml" = some (.file foreign) ∧
      later.get? "targets/raw.yaml" = some (.file noText) ∧
      later.get? "targets/../web.yaml" = none := by
    decide +kernel
  obtain ⟨hgone, hnode, hraw, hoff⟩ := hothers
  exact ⟨hconfig, htemplate, h, hlisted ▸ hkv, hgone, hnode, hraw, hoff, hagain⟩

end ServiceRegistry.Scrape
