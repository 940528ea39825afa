/-
  ServiceRegistry.Proofs.Scrape.Configuration

  The configuration is the template and then the jobs. The text of the template is kept and the
  lines of the jobs come behind it, so that all lines are as they should be exactly if the
  template ends its last line; else this line goes on with the first one of the jobs
  (`write_config_lines`).
-/
import ServiceRegistry.Proofs.Scrape.Upkeep
import ServiceRegistry.Proofs.Yaml.Block

namespace ServiceRegistry.Scrape

open Yaml (AreLines IsUnbroken inset written)

/-! ## Jobs -/

/-- The lines of a job. -/
def Layout.jobLines (layout : Layout) (g : ScrapeGroup) : List String :=
  ["job_name: " ++ written g.name, "metrics_path: /internal/service-info/metrics",
    "scheme: https", "tls_config:", "  insecure_skip_verify: true", "file_sd_configs:",
    "- files:", "  - " ++ written (layout.targetFile g.name)]

section

variable {layout : Layout} {groups : List ScrapeGroup}

theorem unbroken_of_plain {name : String} (h : isPlainName name = true) : IsUnbroken name := by
  intro c hc
  simp only [isPlainName, Bool.and_eq_true, List.all_eq_true] at h
  have hplain := h.2 c hc
  refine Bool.eq_false_iff.2 fun hbreak => ?_
  simp only [Yaml.isBreak, Bool.or_eq_true, beq_iff_eq] at hbreak
  rcases hbreak with (((rfl | rfl) | rfl) | rfl) | rfl <;> exact absurd hplain (by decide)

theorem unbroken_targetFile (hdirectory : IsUnbroken layout.directory) {name : String}
    (h : isPlainName name = true) : IsUnbroken (layout.targetFile name) :=
  (hdirectory.append (by decide)).append ((unbroken_of_plain h).append (by decide))

theorem areLines_job (hdirectory : IsUnbroken layout.directory) {g : ScrapeGroup}
    (h : isPlainName g.name = true) :
    AreLines (layout.job g).block (layout.jobLines g) := by
  have hname : AreLines (Yaml.memberBlock ("job_name", .text g.name)) _ :=
    AreLines.memberText (by decide) (unbroken_of_plain h)
  have hpath : AreLines (Yaml.memberBlock
      ("metrics_path", .text "/internal/service-info/metrics")) _ :=
    AreLines.memberText (by decide) (by decide)
  have hscheme : AreLines (Yaml.memberBlock ("scheme", .text "https")) _ :=
    AreLines.memberText (by decide) (by decide)
  have htls : AreLines (Yaml.memberBlock
      ("tls_config", .map [("insecure_skip_verify", .flag true)])) _ :=
    AreLines.memberMap (by decide) (.map nofun (.cons (.memberTrue (by decide)) .nil))
  have hfile : AreLines (Yaml.text (layout.targetFile g.name)).block _ :=
    AreLines.text (unbroken_targetFile hdirectory h)
  have hfiles : AreLines (Yaml.memberBlock
      ("files", .list [.text (layout.targetFile g.name)])) _ :=
    AreLines.memberList (by decide) (.list nofun (.cons hfile .nil))
  have hconfigs : AreLines (Yaml.memberBlock
      ("file_sd_configs", .list [.map [("files", .list [.text (layout.targetFile g.name)])]])) _ :=
    AreLines.memberList (by decide) (.list nofun (.cons (.map nofun (.cons hfiles .nil)) .nil))
  have hjob := AreLines.map (List.cons_ne_nil _ _) (.cons hname (.cons hpath (.cons hscheme
    (.cons htls (.cons hconfigs .nil)))))
  have hwords : written "/internal/service-info/metrics" = "/internal/service-info/metrics" ∧
      written "https" = "https" := by decide +kernel
  rw [hwords.1, hwords.2] at hjob
  simpa [Layout.job, Layout.jobLines, Yaml.dashed, inset, ← String.append_assoc] using hjob

/-- The jobs of a list, one after the other. -/
theorem lines_jobs (hdirectory : IsUnbroken layout.directory) (hne : groups ≠ [])
    (h : ∀ g ∈ groups, isPlainName g.name = true) :
    Text.lines (Yaml.list (groups.map layout.job)).render
      = groups.flatMap fun g => Yaml.dashed (layout.jobLines g) := by
  have hjobs : List.Forall₂ (fun x => AreLines x.block) (groups.map layout.job)
      (groups.map layout.jobLines) := by
    rw [List.forall₂_map_left_iff, List.forall₂_map_right_iff, List.forall₂_same]
    exact fun g hg => areLines_job hdirectory (h g hg)
  rw [(AreLines.list (by simpa using hne) hjobs).lines_render, List.flatMap_map]

/-- There is no carriage return among the jobs. -/
theorem return_not_mem_jobs : '\r' ∉ (Yaml.list (groups.map layout.job)).render.toList := by
  have hjob : ∀ g, '\r' ∉ (layout.job g).block := by
    intro g
    simp [Layout.job, Yaml.block, Yaml.memberBlock, Yaml.membersBlock, Yaml.itemsBlock,
      Yaml.return_mem_indented_iff, Yaml.return_not_mem_scalar]
  rw [Yaml.render, String.toList_ofList]
  by_cases hne : groups = []
  · subst hne
    exact (by decide : '\r' ∉ (Yaml.list []).block)
  · rw [Yaml.block_list (by simpa using hne), List.flatMap_map, List.mem_flatMap]
    rintro ⟨g, -, hmem⟩
    simp [Yaml.return_mem_indented_iff, hjob g] at hmem

theorem render_jobs_ne_empty (hne : groups ≠ []) :
    (Yaml.list (groups.map layout.job)).render ≠ "" := by
  obtain ⟨g, rest, rfl⟩ := List.exists_cons_of_ne_nil hne
  rw [Yaml.render, List.map_cons, Yaml.block, ← String.toList_inj.ne, String.toList_ofList]
  exact List.cons_ne_nil _ _

theorem Layout.jobsText_eq (layout : Layout) (hne : groups ≠ []) :
    layout.jobsText groups = Text.ofLines
      ((Text.lines (Yaml.list (groups.map layout.job)).render).map inset) := by
  rw [Layout.jobsText, if_neg hne, Text.ofLines, List.map_map]
  rfl

end

/-! ## The configuration -/

theorem readText_of_get? {fs : FileSystem} {path text : String}
    (h : fs.get? path = some (.file (Text.utf8 text))) : fs.readText path = .ok text := by
  rw [FileSystem.readText, h]
  dsimp only
  rw [Text.ofUtf8?_utf8]

section

variable {layout : Layout} {groups : List ScrapeGroup} {fs mid left later : FileSystem}
  (h : layout.Completed groups fs mid left later)

include h

/-- What is there before the configuration is written. -/
theorem Layout.Completed.before_eq :
    Written.andThen (layout.writeTargets groups fs) (layout.blankVanished groups)
      = (.ok (), left) := by
  refine Draft.andThen_eq_ok_iff.2 ⟨mid, ?_, ?_⟩
  · rw [writeTargets_eq, h.targets]
  · unfold blankVanished FileSystem.list
    rw [h.found]
    dsimp only
    rw [blankAmong_eq, h.blanks]

/-- A template that lies elsewhere is the one that was there at first. -/
theorem Layout.Completed.templateText_eq
    (htemplate : ∀ p, layout.template = some p →
      ∀ name, p ≠ FileSystem.inside layout.directory name) :
    layout.templateText left = layout.templateText fs := by
  unfold templateText
  cases hpath : layout.template with
  | none => rfl
  | some p =>
    have hmid : mid.get? p = fs.get? p := by
      refine Draft.get?_of_not_mem h.targets fun d hd heq => ?_
      obtain ⟨g, -, rfl⟩ := List.mem_map.1 hd
      exact htemplate p hpath _ heq.symm
    have hleft : left.get? p = mid.get? p := by
      refine Draft.get?_of_not_mem h.blanks fun d hd heq => ?_
      obtain ⟨name, rfl, -⟩ := mem_blankDrafts.1 hd
      exact htemplate p hpath _ heq.symm
    dsimp only
    rw [FileSystem.readText, FileSystem.readText, hleft, hmid]

/-- The text of the configuration. -/
theorem Layout.Completed.exists_template {path : String} (hconfig : layout.config = some path) :
    ∃ template, layout.templateText left = .ok template ∧
      later.readText path = .ok (template ++ layout.jobsText groups) := by
  rcases Layout.writeConfig_eq_ok_iff.1 h.config with
    ⟨hnone, -⟩ | ⟨other, template, hpath, htext, hwritten⟩
  · rw [hconfig] at hnone
    cases hnone
  · obtain rfl : path = other := Option.some.inj (hconfig.symm.trans hpath)
    have hfile := Draft.get?_of_mem hwritten List.mem_cons_self fun d hd _ => by
      rw [List.mem_singleton.1 hd]
    exact ⟨template, htext, readText_of_get? hfile⟩

end

end ServiceRegistry.Scrape
