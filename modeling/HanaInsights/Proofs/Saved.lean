import HanaInsights.Proofs.Files
import HanaInsights.Proofs.Keyed
import HanaInsights.Proofs.Layout
import HanaInsights.Proofs.TomlIntegers
import HanaInsights.Publish.File
set_option autoImplicit false

namespace HanaInsights

section
variable {arrange : List (String × Json) → List (String × Json)}
  (harr : ∀ ms, (arrange ms).Perm ms) (s : Json.Source)
include harr

theorem Outcome.decode?_arranged_toJson (o : Outcome) :
    decode? s (o.toJson.arranged arrange) = some o := by
  have hfields : (o.toJson.arranged arrange).fields? s ["recommendationId", "result"] =
      some [some (.string o.recommendationId), some (.bool o.result)] :=
    Json.fields?_perm_written s (harr _) (by decide) rfl
  rw [decode?, hfields]
  rfl

theorem Diagnostic.decode?_arranged_toJson (d : Diagnostic) :
    decode? s (d.toJson.arranged arrange) = some d := by
  have hfields : (d.toJson.arranged arrange).fields? s ["ruleId", "recommendationId", "message"] =
      some [some (.string d.ruleId), some (.string d.recommendationId), some (.string d.message)] :=
    Json.fields?_perm_written s (harr _) (by decide) rfl
  rw [decode?, hfields]
  rfl

theorem Insights.decode?_arranged_toJson (insights : Insights) :
    decode? s (toJson insights |>.arranged arrange) = some insights := by
  have houtcomes : ∀ e ∈ insights.entries, Json.listOf? (Outcome.decode? s)
      (Json.arranged arrange (.array (e.2.map Outcome.toJson))) = some e.2 := by
    intro e _
    rw [Json.arranged, Json.arrangedItems_eq_map, List.map_map]
    exact Json.listOf?_map fun o _ => o.decode?_arranged_toJson harr s
  have hread := Json.pairsOf?_map
    (fun outcomes : List Outcome => Json.arranged arrange (.array (outcomes.map Outcome.toJson)))
    houtcomes
  obtain ⟨pairs, hpairs, hperm⟩ := Json.pairsOf?_perm (harr _) hread
  have hofList := Keyed.ofList_perm hperm insights.nodup_keys
  rw [Keyed.ofList_entries] at hofList
  rw [toJson, Json.arranged, Json.arrangedMembers_eq_map, List.map_map, decode?]
  exact (congrArg (Option.map Keyed.ofList) hpairs).trans (congrArg some hofList)

end

section
variable (depth : Nat)

theorem Outcome.held_toJson (o : Outcome) : Json.Held (depth + 1) o.toJson := by
  refine .object fun m hm => ?_
  rcases List.mem_pair.1 hm with rfl | rfl
  · exact .string _
  · exact .bool _

theorem Diagnostic.held_toJson (d : Diagnostic) : Json.Held (depth + 1) d.toJson := by
  refine .object fun m hm => ?_
  simp only [List.mem_cons, List.not_mem_nil, or_false] at hm
  rcases hm with rfl | rfl | rfl <;> exact .string _

theorem Insights.held_toJson (insights : Insights) : Json.Held (depth + 3) (toJson insights) := by
  refine .object fun m hm => ?_
  obtain ⟨e, -, rfl⟩ := List.mem_map.1 hm
  refine .array fun v hv => ?_
  obtain ⟨o, -, rfl⟩ := List.mem_map.1 hv
  exact o.held_toJson depth

end

namespace Run

def CountsBelow (bound : Nat) (run : Run) : Prop :=
  run.generatedAt < bound ∧ run.rulesEvaluated < bound ∧ run.knowledgeBaseKeys < bound

/-- Counts have 64 bits. -/
def Counted (run : Run) : Prop := run.CountsBelow 18446744073709551616

/-- The integers of TOML have 64 bits with a sign. -/
def FitsToml (run : Run) : Prop := run.CountsBelow 9223372036854775808

def fieldNames : List String :=
  ["generatedAt", "hostname", "rulesEvaluated", "knowledgeBaseKeys", "insights", "diagnostics"]

theorem decode?_of_fields {s : Json.Source} {v generatedAt hostname rulesEvaluated
    knowledgeBaseKeys insights : Json} {diagnostics : Option Json} {run : Run}
    (hfields : v.fields? s fieldNames = some [some generatedAt, some hostname, some rulesEvaluated,
      some knowledgeBaseKeys, some insights, diagnostics])
    (hgenerated : generatedAt.word64? = some run.generatedAt)
    (hhostname : hostname.string? = some run.hostname)
    (hrules : rulesEvaluated.word64? = some run.rulesEvaluated)
    (hkeys : knowledgeBaseKeys.word64? = some run.knowledgeBaseKeys)
    (hinsights : Insights.decode? s insights = some run.insights)
    (hdiagnostics : Json.orElse [] (Json.listOf? (Diagnostic.decode? s)) diagnostics =
      some run.diagnostics) : decode? s v = some run := by
  rw [fieldNames] at hfields
  simp [decode?, hfields, Json.required, hgenerated, hhostname, hrules, hkeys, hinsights,
    hdiagnostics]

theorem decode?_arranged_toJson {arrange : List (String × Json) → List (String × Json)}
    (harr : ∀ ms, (arrange ms).Perm ms) (s : Json.Source) {run : Run}
    (h : run.Counted) : decode? s (run.toJson.arranged arrange) = some run := by
  have hitems : Json.arrangedItems arrange (run.diagnostics.map Diagnostic.toJson) =
      run.diagnostics.map fun d => d.toJson.arranged arrange := by
    rw [Json.arrangedItems_eq_map, List.map_map]
    rfl
  have hfields : (run.toJson.arranged arrange).fields? s fieldNames =
      some [some (.natural run.generatedAt), some (.string run.hostname),
        some (.natural run.rulesEvaluated), some (.natural run.knowledgeBaseKeys),
        some ((Insights.toJson run.insights).arranged arrange),
        if run.diagnostics.isEmpty then none
          else some (.array (run.diagnostics.map fun d => d.toJson.arranged arrange))] := by
    refine Json.fields?_perm_written s ((harr _).trans (.of_eq ?_)) (by decide) rfl
    rw [← hitems]
    cases run.diagnostics <;> rfl
  obtain ⟨hgenerated, hrules, hkeys⟩ := h
  refine decode?_of_fields hfields (Json.natBelow?_natural hgenerated) rfl
    (Json.natBelow?_natural hrules) (Json.natBelow?_natural hkeys)
    (Insights.decode?_arranged_toJson harr s run.insights) ?_
  cases hd : run.diagnostics with
  | nil => rfl
  | cons d rest => exact Json.listOf?_map fun d _ => d.decode?_arranged_toJson harr s

theorem held_natural {depth n : Nat} (h : n < 18446744073709551616) :
    Json.Held depth (.natural n) :=
  .integer (by omega) (by omega)

theorem held_toJson {run : Run} (h : run.Counted) :
    Json.Held Json.depthLimit run.toJson := by
  obtain ⟨hgenerated, hrules, hkeys⟩ := h
  refine .object fun m hm => ?_
  simp only [List.mem_append, List.mem_cons, List.not_mem_nil, or_false] at hm
  rcases hm with (rfl | rfl | rfl | rfl | rfl) | hm
  · exact held_natural hgenerated
  · exact .string _
  · exact held_natural hrules
  · exact held_natural hkeys
  · exact Insights.held_toJson _ run.insights
  · split at hm
    · cases hm
    · obtain rfl := List.mem_singleton.1 hm
      refine .array fun v hv => ?_
      obtain ⟨d, -, rfl⟩ := List.mem_map.1 hv
      exact d.held_toJson _

theorem regular_outcomes (outcomes : List Outcome) :
    Toml.Regular 1 (.array (outcomes.map outcomeToToml)) := by
  refine Toml.regular_array_map (fun _ _ => by simp) fun o _ e he => ?_
  rcases List.mem_pair.1 he with rfl | rfl
  · exact .leaf (.string _)
  · exact .leaf (.bool _)

theorem regular_diagnostics (diagnostics : List Diagnostic) :
    Toml.Regular 2 (.array (diagnostics.map diagnosticToToml)) := by
  refine Toml.regular_array_map (fun _ _ => by simp) fun d _ e he => ?_
  simp only [List.mem_cons, List.not_mem_nil, or_false] at he
  rcases he with rfl | rfl | rfl <;> exact .leaf (.string _)

theorem regular_insights (insights : Insights) : Toml.Regular 2 (insightsToToml insights) := by
  refine .table ?_ fun e he => ?_
  · rw [List.map_map]
    exact insights.nodup_keys
  · obtain ⟨e, -, rfl⟩ := List.mem_map.1 he
    exact regular_outcomes e.2

theorem toJson_insights (insights : Insights) :
    (insightsToToml insights).toJson = Insights.toJson insights := by
  rw [insightsToToml, Toml.toJson, Toml.toJsonEntries_eq_map, List.map_map, Insights.toJson]
  congr 2
  funext e
  exact congrArg (e.1, ·) (Toml.toJson_array_map outcomeToToml e.2)

def tomlEntries (run : Run) : List (String × Toml) :=
  [("generatedAt", .integer run.generatedAt), ("hostname", .string run.hostname),
    ("rulesEvaluated", .integer run.rulesEvaluated),
    ("knowledgeBaseKeys", .integer run.knowledgeBaseKeys),
    ("insights", insightsToToml run.insights)] ++
  (if run.diagnostics.isEmpty then []
    else [("diagnostics", .array (run.diagnostics.map diagnosticToToml))])

section
variable {run : Run}

theorem toToml?_of_fits (h : run.FitsToml) :
    run.toToml? = some run.tomlEntries := by
  obtain ⟨hgenerated, hrules, hkeys⟩ := h
  simp only [toToml?, Toml.natural?_of_lt hgenerated, Toml.natural?_of_lt hrules,
    Toml.natural?_of_lt hkeys, Option.bind_eq_bind, Option.bind_some, tomlEntries]

theorem toToml?_eq_none (h : ¬ run.FitsToml) : run.toToml? = none := by
  simp only [FitsToml, CountsBelow, not_and_or] at h
  rcases h with h | h | h <;> simp [toToml?, Toml.natural?_of_ge h]

theorem regular_tomlEntries (h : run.FitsToml) :
    Toml.Regular 3 (.table run.tomlEntries) := by
  obtain ⟨hgenerated, hrules, hkeys⟩ := h
  refine .table ?_ fun e he => ?_
  · rw [tomlEntries]
    split
    · exact (by decide : (fieldNames.take 5).Nodup)
    · exact (by decide : fieldNames.Nodup)
  · simp only [tomlEntries, List.mem_append, List.mem_cons, List.not_mem_nil, or_false] at he
    rcases he with (rfl | rfl | rfl | rfl | rfl) | he
    · exact Toml.regular_natural hgenerated
    · exact .leaf (.string _)
    · exact Toml.regular_natural hrules
    · exact Toml.regular_natural hkeys
    · exact regular_insights run.insights
    · split at he
      · cases he
      · obtain rfl := List.mem_singleton.1 he
        exact regular_diagnostics run.diagnostics

theorem toJson_tomlEntries (run : Run) : (Toml.table run.tomlEntries).toJson = run.toJson := by
  rw [tomlEntries, toJson, Toml.toJson, ← toJson_insights]
  split
  · rfl
  · have hdiagnostics := Toml.toJson_array_map diagnosticToToml run.diagnostics
    rw [Toml.toJsonEntries_eq_map, List.map_append, List.map_singleton, hdiagnostics]
    rfl

theorem render?_eq_none_iff {format : OutputFormat} :
    run.render? format = none ↔ format = .toml ∧ ¬ run.FitsToml := by
  cases format with
  | json => exact iff_of_false nofun fun h => nomatch h.1
  | toml =>
    by_cases h : run.FitsToml
    · rw [render?, toToml?_of_fits h]
      exact iff_of_false nofun fun hbeyond => hbeyond.2 h
    · rw [render?, toToml?_eq_none h]
      exact iff_of_true rfl ⟨rfl, h⟩

theorem read?_of_render? {format : OutputFormat} {text : String} (h : run.Counted)
    (hrender : run.render? format = some text) : read? format text = some run := by
  cases format with
  | json =>
    obtain rfl := Option.some.inj hrender
    have hperm : ∀ ms : List (String × Json), (id ms).Perm ms := fun _ => .refl _
    have hdecode := decode?_arranged_toJson hperm .json h
    rw [Json.arranged_id] at hdecode
    rw [read?, Json.readPart?_pretty (held_toJson h), Option.bind_some, ofJson?, hdecode]
  | toml =>
    by_cases hcounts : run.FitsToml
    · rw [render?, toToml?_of_fits hcounts] at hrender
      obtain rfl := Option.some.inj hrender
      obtain ⟨v, hread, hjson⟩ := Toml.exists_read?_print (regular_tomlEntries hcounts) (by decide)
      have hdecode := decode?_arranged_toJson Json.pairsFirst_perm .toml h
      rw [read?, hread, Option.bind_some, hjson, toJson_tomlEntries, hdecode]
    · rw [render?_eq_none_iff.2 ⟨rfl, hcounts⟩] at hrender
      cases hrender

section
variable {files files' : FileTree} {format : OutputFormat} {path text : String}

theorem readText_of_writeText (h : writeText files path text = (files', .ok ())) :
    files'.readText path = .ok text := by
  rw [writeText] at h
  split at h
  · cases h
  · split at h
    next => cases h
    next hwrite =>
      cases h
      exact FileTree.readText_of_write hwrite

theorem writeText_ne_serializationFailed (message : String) :
    (writeText files path text).2 ≠ .error (.serializationFailed message) := by
  rw [writeText]
  split
  · simp
  · split <;> simp

theorem exists_save (hfits : format = .toml → run.FitsToml) (words : Wording)
    {placed written : FileTree} {bytes : List UInt8} (hplaced : files.makeDirectories (parentOf path) = .ok placed)
    (hwritten : placed.write path bytes = .ok written) :
    ∃ files', run.save files format path words = (files', .ok ()) := by
  have hrender : run.render? format ≠ none := fun hnone =>
    (render?_eq_none_iff.1 hnone).2 (hfits (render?_eq_none_iff.1 hnone).1)
  obtain ⟨text, htext⟩ := Option.ne_none_iff_exists'.1 hrender
  obtain ⟨files', hfiles'⟩ := FileTree.exists_write hwritten (Utf8.encode text)
  have hgrown := FileTree.growDirectories_of_makeDirectories hplaced
  exact ⟨files', by simp only [save, htext, writeText, hgrown, hfiles']⟩

theorem load_of_save {words : Wording} (h : run.Counted)
    (hsave : run.save files format path words = (files', .ok ())) :
    load files' format path words = .ok run := by
  rw [save] at hsave
  cases hrender : run.render? format with
  | none =>
    rw [hrender] at hsave
    cases hsave
  | some text =>
    rw [hrender] at hsave
    rw [load, readText_of_writeText hsave]
    simp only [read?_of_render? h hrender]

end

theorem save_of_not_fits (h : ¬ run.FitsToml) (files : FileTree) (path : String)
    (words : Wording) : run.save files .toml path words =
      (files, .error (.serializationFailed ("TOML serialization failed: " ++ words.count))) := by
  rw [save, render?_eq_none_iff.2 ⟨rfl, h⟩]
  rfl

theorem not_fits_of_save {files : FileTree} {path message : String} {format : OutputFormat}
    {words : Wording}
    (h : (run.save files format path words).2 = .error (.serializationFailed message)) :
    format = .toml ∧ ¬ run.FitsToml := by
  rw [save] at h
  cases hrender : run.render? format with
  | none => exact render?_eq_none_iff.1 hrender
  | some text =>
    rw [hrender] at h
    exact absurd h (writeText_ne_serializationFailed message)

end

/-- What was saved in either format is loaded as it was. Only TOML has runs that it cannot say,
those with a count beyond its integers, and they touch no file; all others are saved wherever
something can be written. -/
theorem saved_loads_unchanged (run : Run) (h : run.Counted) (files : FileTree) (path : String)
    (words : Wording) :
    (∀ format files', run.save files format path words = (files', .ok ()) →
      load files' format path words = .ok run) ∧
    (∀ format placed bytes written, (format = .toml → run.FitsToml) →
      files.makeDirectories (parentOf path) = .ok placed → placed.write path bytes = .ok written →
      ∃ files', run.save files format path words = (files', .ok ())) ∧
    ((∃ message, (run.save files .toml path words).2 = .error (.serializationFailed message)) ↔
      ¬ run.FitsToml) ∧
    (¬ run.FitsToml → (run.save files .toml path words).1 = files) := by
  refine ⟨fun _ _ => load_of_save h,
    fun _ _ _ _ hfits hplaced hwritten => exists_save hfits words hplaced hwritten,
    ⟨fun ⟨_, hfailed⟩ => (not_fits_of_save hfailed).2, ?_⟩, ?_⟩
  · intro hcounts
    exact ⟨_, by rw [save_of_not_fits hcounts]⟩
  · intro hcounts
    rw [save_of_not_fits hcounts]

def mixedRun : Run where
  generatedAt := 1700000000
  hostname := "db \"01\""
  rulesEvaluated := 2
  knowledgeBaseKeys := 3
  insights := Keyed.ofList [("capacity", [⟨"standby", true⟩]), ("network.v2", [])]
  diagnostics := [⟨"capacity", "standby", "no such key"⟩]

def lateRun : Run := { mixedRun with generatedAt := 9223372036854775808, diagnostics := [] }

theorem saved_loads_unchanged_of_mixed :
    mixedRun.Counted ∧
    (∀ format, load (mixedRun.save {} format "out/run").1 format "out/run" = .ok mixedRun) ∧
    lateRun.Counted ∧
    load (lateRun.save {} .json "out/run").1 .json "out/run" = .ok lateRun ∧
    (∃ message, (lateRun.save {} .toml "out/run").2 = .error (.serializationFailed message)) ∧
    (lateRun.save {} .toml "out/run").1 = {} := by
  have hmixed : mixedRun.Counted := by simp [Counted, CountsBelow, mixedRun]
  have hlate : lateRun.Counted := by simp [Counted, CountsBelow, lateRun, mixedRun]
  have hbeyond : ¬ lateRun.FitsToml := by simp [FitsToml, CountsBelow, lateRun]
  obtain ⟨hload, -⟩ := saved_loads_unchanged mixedRun hmixed {} "out/run" {}
  obtain ⟨hload', -, hfails, hfiles⟩ := saved_loads_unchanged lateRun hlate {} "out/run" {}
  refine ⟨hmixed, fun format => hload format _ (Prod.ext rfl ?_), hlate,
    hload' .json _ (Prod.ext rfl rfl), hfails.2 hbeyond, hfiles hbeyond⟩
  cases format <;> rfl

end Run
end HanaInsights
