/-
  ServiceRegistry.Proofs.Scrape.Drafts

  Files written one after the other. What a writing does is to write a list of drafts, each a
  text at a path, until one of them cannot be written (`writeAll`). Of a list that went through
  we know where it has written and what is there now, and since whatever could be written once
  can be written again, writing what is already there changes nothing (`writeAll_again`).
-/
import ServiceRegistry.Proofs.Scrape.Ownership

namespace ServiceRegistry.Scrape

/-! ## Writing one file -/

namespace FileSystem

/-- A file can be written at a path. -/
structure Writable (fs : FileSystem) (path : String) : Prop where
  parent : ∀ directory, parent? path = some directory → fs.get? directory = some .directory
  short : (lastName path).utf8ByteSize ≤ longestName
  free : fs.get? path ≠ some .directory

theorem write_eq_ok_iff {fs later : FileSystem} {path : String} {content : List UInt8} :
    fs.write path content = .ok later ↔
      fs.Writable path ∧ later = fs.put path (.file content) := by
  have hrest : (∀ directory, parent? path = some directory → fs.get? directory = some .directory) →
      ((if (lastName path).utf8ByteSize > longestName then .error .invalidFileName
        else if fs.get? path = some .directory then .error .isADirectory
        else .ok (fs.put path (.file content)) : Except FileError FileSystem) = .ok later ↔
      fs.Writable path ∧ later = fs.put path (.file content)) := by
    intro hparent
    by_cases hlong : (lastName path).utf8ByteSize > longestName
    · rw [if_pos hlong]
      exact iff_of_false nofun fun h => absurd h.1.short (Nat.not_le.2 hlong)
    · rw [if_neg hlong]
      by_cases hdirectory : fs.get? path = some .directory
      · rw [if_pos hdirectory]
        exact iff_of_false nofun fun h => h.1.free hdirectory
      · rw [if_neg hdirectory]
        constructor
        · rintro ⟨⟩
          exact ⟨⟨hparent, Nat.not_lt.1 hlong, hdirectory⟩, rfl⟩
        · rintro ⟨-, rfl⟩
          rfl
  unfold write
  cases hparent : parent? path with
  | none => exact hrest fun _ h => by cases hparent.symm.trans h
  | some directory =>
    rw [Option.map_some]
    cases hnode : fs.get? directory with
    | none => exact iff_of_false nofun fun h => by cases hnode.symm.trans (h.1.parent _ hparent)
    | some node =>
      cases node with
      | file _ =>
        exact iff_of_false nofun fun h => by cases hnode.symm.trans (h.1.parent _ hparent)
      | directory =>
        refine hrest fun other h => ?_
        obtain rfl : directory = other := Option.some.inj (hparent.symm.trans h)
        exact hnode

theorem putNode_eq_self {path : String} {node : Node} {nodes : List (String × Node)}
    (h : nodes.lookup path = some node) : putNode path node nodes = nodes := by
  induction nodes with
  | nil => cases h
  | cons x rest ih =>
    obtain ⟨p, n⟩ := x
    rw [lookup_cons_eq] at h
    unfold putNode
    by_cases hp : p = path
    · rw [if_pos hp.symm] at h
      rw [if_pos hp, Option.some.inj h]
    · rw [if_neg (Ne.symm hp)] at h
      rw [if_neg hp, ih h]

theorem put_eq_self {fs : FileSystem} {path : String} {node : Node}
    (h : fs.get? path = some node) : fs.put path node = fs := by
  rw [put, putNode_eq_self h]

section

variable {fs : FileSystem} {path other : String} {content : List UInt8}

/-- Writing turns no directory into a file. -/
theorem directory_put (h : fs.Writable path) (hother : fs.get? other = some .directory) :
    (fs.put path (.file content)).get? other = some .directory := by
  rw [get?_put, if_neg]
  · exact hother
  · rintro rfl
    exact h.free hother

theorem Writable.put (hother : fs.Writable other) (h : fs.Writable path) :
    (fs.put path (.file content)).Writable other where
  parent directory hparent := directory_put h (hother.parent directory hparent)
  short := hother.short
  free := by
    rw [get?_put]
    split
    · nofun
    · exact hother.free

end

end FileSystem

/-! ## Writing many files -/

/-- A text to be written at a path. -/
structure Draft where
  path : String
  text : String

namespace Draft

/-- What is at the path when the text has been written. -/
def node (d : Draft) : Node := .file (Text.utf8 d.text)

/-- Writes drafts, as far as that succeeds. -/
def writeAll : List Draft → FileSystem → Written
  | [], fs => (.ok (), fs)
  | d :: ds, fs => Written.andThen (writeText d.path d.text fs) (writeAll ds)

theorem writeText_eq_ok_iff {fs later : FileSystem} {path text : String} :
    writeText path text fs = (.ok (), later) ↔
      fs.Writable path ∧ later = fs.put path (.file (Text.utf8 text)) := by
  rw [← FileSystem.write_eq_ok_iff, writeText]
  cases fs.write path (Text.utf8 text) with
  | error e => exact iff_of_false nofun nofun
  | ok after => simp only [Prod.mk.injEq, true_and, Except.ok.injEq]

theorem andThen_eq_ok_iff {w : Written} {next : FileSystem → Written} {later : FileSystem} :
    w.andThen next = (.ok (), later) ↔ ∃ fs, w = (.ok (), fs) ∧ next fs = (.ok (), later) := by
  obtain ⟨result, fs⟩ := w
  cases result with
  | error e => exact iff_of_false nofun (fun ⟨_, h, _⟩ => nomatch h)
  | ok u =>
    constructor
    · exact fun h => ⟨fs, rfl, h⟩
    · rintro ⟨_, ⟨⟩, h⟩
      exact h

theorem writeAll_cons_eq_ok_iff {d : Draft} {ds : List Draft} {fs later : FileSystem} :
    writeAll (d :: ds) fs = (.ok (), later) ↔
      fs.Writable d.path ∧ writeAll ds (fs.put d.path d.node) = (.ok (), later) := by
  rw [writeAll, andThen_eq_ok_iff]
  constructor
  · rintro ⟨after, hfirst, hrest⟩
    obtain ⟨hwritable, rfl⟩ := writeText_eq_ok_iff.1 hfirst
    exact ⟨hwritable, hrest⟩
  · rintro ⟨hwritable, hrest⟩
    exact ⟨_, writeText_eq_ok_iff.2 ⟨hwritable, rfl⟩, hrest⟩

section

variable {ds : List Draft} {fs later : FileSystem} (h : writeAll ds fs = (.ok (), later))

include h

theorem directory_kept {path : String} (hpath : fs.get? path = some .directory) :
    later.get? path = some .directory := by
  induction ds generalizing fs with
  | nil =>
    cases h
    exact hpath
  | cons d ds ih =>
    obtain ⟨hd, hrest⟩ := writeAll_cons_eq_ok_iff.1 h
    exact ih hrest (FileSystem.directory_put hd hpath)

theorem writable_kept {path : String} (hpath : fs.Writable path) : later.Writable path := by
  induction ds generalizing fs with
  | nil =>
    cases h
    exact hpath
  | cons d ds ih =>
    obtain ⟨hd, hrest⟩ := writeAll_cons_eq_ok_iff.1 h
    exact ih hrest (hpath.put hd)

/-- Where something was written, something can be written still. -/
theorem writable_of_mem {d : Draft} (hd : d ∈ ds) : later.Writable d.path := by
  induction ds generalizing fs with
  | nil => cases hd
  | cons e ds ih =>
    obtain ⟨he, hrest⟩ := writeAll_cons_eq_ok_iff.1 h
    rcases List.mem_cons.1 hd with rfl | hd
    · exact writable_kept hrest (he.put he)
    · exact ih hrest hd

theorem get?_of_not_mem {path : String} (hpath : ∀ d ∈ ds, d.path ≠ path) :
    later.get? path = fs.get? path := by
  induction ds generalizing fs with
  | nil =>
    cases h
    rfl
  | cons d ds ih =>
    obtain ⟨hd, hds⟩ := List.forall_mem_cons.1 hpath
    obtain ⟨-, hrest⟩ := writeAll_cons_eq_ok_iff.1 h
    rw [ih hrest hds, FileSystem.get?_put, if_neg (Ne.symm hd)]

/-- A draft is where it was written, if no other text was written there. -/
theorem get?_of_mem {d : Draft} (hd : d ∈ ds)
    (hsame : ∀ e ∈ ds, e.path = d.path → e.text = d.text) :
    later.get? d.path = some d.node := by
  induction ds generalizing fs with
  | nil => cases hd
  | cons e ds ih =>
    obtain ⟨he, hsame⟩ := List.forall_mem_cons.1 hsame
    obtain ⟨-, hrest⟩ := writeAll_cons_eq_ok_iff.1 h
    by_cases hagain : ∃ x ∈ ds, x.path = d.path
    · obtain ⟨x, hx, hpath⟩ := hagain
      obtain rfl : x = d := by
        cases x
        cases d
        exact Draft.mk.injEq .. ▸ ⟨hpath, hsame _ hx hpath⟩
      exact ih hrest hx hsame
    · -- The last of them is the first.
      have hlast : ∀ x ∈ ds, x.path ≠ d.path := fun x hx heq => hagain ⟨x, hx, heq⟩
      rcases List.mem_cons.1 hd with rfl | hd
      · rw [get?_of_not_mem hrest hlast, FileSystem.get?_put, if_pos rfl]
      · exact absurd rfl (hlast d hd)

end

/-- To write what is already there changes nothing. -/
theorem writeAll_again {ds : List Draft} {fs : FileSystem}
    (h : ∀ d ∈ ds, fs.Writable d.path ∧ fs.get? d.path = some d.node) :
    writeAll ds fs = (.ok (), fs) := by
  induction ds with
  | nil => rfl
  | cons d ds ih =>
    obtain ⟨⟨hwritable, hnode⟩, hds⟩ := List.forall_mem_cons.1 h
    rw [writeAll_cons_eq_ok_iff, FileSystem.put_eq_self hnode]
    exact ⟨hwritable, ih hds⟩

end Draft

end ServiceRegistry.Scrape
