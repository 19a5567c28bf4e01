import HanaInsights.Proofs.Spelling
import HanaInsights.Rule.Document
set_option autoImplicit false

namespace HanaInsights

variable {arrange : List (String × Json) → List (String × Json)}

theorem Query.ofJson?_arranged_toJson (harr : ∀ ms, (arrange ms).Perm ms) (q : Query) :
    ofJson? (q.toJson.arranged arrange) = some q := by
  have hcolumns : Json.listOf? Json.string? (.array (q.columns.map .string)) = some q.columns :=
    Json.listOf?_map fun _ _ => rfl
  rw [toJson, Json.arranged, ofJson?, Json.fields?_object]
  simp only [Json.given?_perm (harr _)]
  simp [Json.arranged, Json.arrangedMembers, Json.arrangedItems_eq_map, Json.given?, Json.sole,
    Json.required, Json.orElse, hcolumns, Function.comp_def]

namespace Recommendation

theorem ofJson?_object (members : List (String × Json)) :
    ofJson? (.object members) =
      ((Json.given? ["id"] members).bind (Json.required Json.string?)).bind fun id =>
      ((Json.given? ["description"] members).bind (Json.orElse "" Json.string?)).bind
        fun description =>
      ((Json.given? ["trigger"] members).bind
        (Json.orElse none (Json.nullable? Trigger.ofJson?))).bind fun trigger =>
          some ⟨id, description, trigger⟩ := by
  rw [ofJson?, Json.fields?_object]
  cases hid : Json.given? ["id"] members <;>
    cases hdescription : Json.given? ["description"] members <;>
    cases htrigger : Json.given? ["trigger"] members <;>
    simp [hid, hdescription, htrigger]

theorem ofJson?_object_perm {members others : List (String × Json)} (h : members.Perm others) :
    ofJson? (.object members) = ofJson? (.object others) := by
  simp only [ofJson?_object, Json.given?_perm h]

theorem leftOut_description : Json.LeftOut ofJson? ["description"] 1 (.string "") := by
  apply Json.leftOut_of_given
  · intro ms ns hms hns hothers
    have hid := hothers ["id"] (by decide)
    have htrigger := hothers ["trigger"] (by decide)
    simp only [ofJson?_object, hms, hns, hid, htrigger]
    rfl
  · intro items h
    obtain ⟨id, rfl⟩ := List.length_eq_one_iff.1 h
    rfl

theorem leftOut_trigger : Json.LeftOut ofJson? ["trigger"] 2 .null := by
  apply Json.leftOut_of_given
  · intro ms ns hms hns hothers
    have hid := hothers ["id"] (by decide)
    have hdescription := hothers ["description"] (by decide)
    simp only [ofJson?_object, hms, hns, hid, hdescription]
    rfl
  · intro items h
    obtain ⟨id, description, rfl⟩ := List.length_eq_two.1 h
    rfl

theorem trigger_of_ofJson? {v : Json} {r : Recommendation} (h : ofJson? v = some r) :
    ∃ id description trigger,
      v.fields? .json ["id", "description", "trigger"] = some [id, description, trigger] ∧
      Json.orElse none (Json.nullable? Trigger.ofJson?) trigger = some r.trigger := by
  simp only [ofJson?, Option.bind_eq_bind, Option.bind_eq_some_iff] at h
  obtain ⟨given, hgiven, h⟩ := h
  split at h
  · simp only [Option.bind_eq_some_iff, Option.some.injEq] at h
    obtain ⟨id, -, description, -, trigger, htrigger, rfl⟩ := h
    exact ⟨_, _, _, hgiven, htrigger⟩
  · cases h

theorem trigger_eq_none_of_lacks {v : Json} {r : Recommendation} (h : ofJson? v = some r)
    (hlacks : v.Lacks ["trigger"] 2) : r.trigger = none := by
  obtain ⟨id, description, trigger, hgiven, htrigger⟩ := trigger_of_ofJson? h
  have hnone : trigger = none := by
    cases v with
    | object members =>
      rw [Json.fields?_object_eq_some_iff] at hgiven
      have htrigger : Json.given? ["trigger"] members = some trigger := by simp_all
      rw [Json.given?_absent hlacks] at htrigger
      exact (Option.some.inj htrigger).symm
    | array items =>
      match items with
      | [] | [_] | [_, _] =>
        cases hgiven
        rfl
      | _ :: _ :: _ :: _ => simp [Json.Lacks] at hlacks
    | _ => cases hgiven
  subst hnone
  exact (Option.some.inj htrigger).symm

def Spelled (r : Recommendation) : Prop := ∀ t ∈ r.trigger, t.Spelled

theorem spelled_of_ofJson? {v : Json} {r : Recommendation} (h : ofJson? v = some r) :
    r.Spelled := by
  obtain ⟨id, description, trigger, -, htrigger⟩ := trigger_of_ofJson? h
  intro t ht
  rcases Json.orElse_eq_some htrigger with hnone | ⟨v, -, hv⟩
  · rw [hnone] at ht
    cases ht
  · rw [ht] at hv
    exact Trigger.spelled_of_ofJson? (Json.nullable?_eq_some hv)

theorem ofJson?_arranged_toJson (harr : ∀ ms, (arrange ms).Perm ms) {r : Recommendation}
    (h : r.Spelled) : ofJson? (r.toJson.arranged arrange) = some r := by
  obtain ⟨id, description, trigger⟩ := r
  have htrigger : Json.nullable? Trigger.ofJson?
      (((trigger.map Trigger.toJson).getD .null).arranged arrange) = some trigger := by
    cases trigger with
    | none => rfl
    | some t => exact Json.nullable?_of_read rfl (Trigger.ofJson?_arranged_toJson harr (h t rfl))
  rw [toJson, Json.arranged, ofJson?_object_perm (harr _), ofJson?_object]
  by_cases hd : description = "" <;>
    simp [describedBy, hd, Json.arranged, Json.arrangedMembers, Json.given?, Json.sole,
      Json.required, Json.orElse, htrigger]

end Recommendation

namespace Rule

theorem ofJson?_object (members : List (String × Json)) :
    ofJson? (.object members) =
      ((Json.given? ["id"] members).bind (Json.required Json.string?)).bind fun id =>
      ((Json.given? ["description"] members).bind (Json.orElse "" Json.string?)).bind
        fun description =>
      ((Json.given? ["queries"] members).bind
        (Json.orElse [] (Json.listOf? Query.ofJson?))).bind fun queries =>
      ((Json.given? ["recommendations"] members).bind
        (Json.orElse [] (Json.listOf? Recommendation.ofJson?))).bind fun recommendations =>
          some ⟨id, description, queries, recommendations⟩ := by
  rw [ofJson?, Json.fields?_object]
  cases hid : Json.given? ["id"] members <;>
    cases hdescription : Json.given? ["description"] members <;>
    cases hqueries : Json.given? ["queries"] members <;>
    cases hrecommendations : Json.given? ["recommendations"] members <;>
    simp [hid, hdescription, hqueries, hrecommendations]

theorem ofJson?_object_perm {members others : List (String × Json)} (h : members.Perm others) :
    ofJson? (.object members) = ofJson? (.object others) := by
  simp only [ofJson?_object, Json.given?_perm h]

theorem leftOut_description : Json.LeftOut ofJson? ["description"] 1 (.string "") := by
  apply Json.leftOut_of_given
  · intro ms ns hms hns hothers
    have hid := hothers ["id"] (by decide)
    have hqueries := hothers ["queries"] (by decide)
    have hrecommendations := hothers ["recommendations"] (by decide)
    simp only [ofJson?_object, hms, hns, hid, hqueries, hrecommendations]
    rfl
  · intro items h
    obtain ⟨id, rfl⟩ := List.length_eq_one_iff.1 h
    rfl

def Spelled (rule : Rule) : Prop := ∀ r ∈ rule.recommendations, r.Spelled

theorem spelled_of_ofJson? {v : Json} {rule : Rule} (h : ofJson? v = some rule) :
    rule.Spelled := by
  simp only [ofJson?, Option.bind_eq_bind, Option.bind_eq_some_iff] at h
  obtain ⟨given, -, h⟩ := h
  split at h
  · simp only [Option.bind_eq_some_iff, Option.some.injEq] at h
    obtain ⟨id, -, description, -, queries, -, recommendations, hrecommendations, rfl⟩ := h
    intro r hr
    rcases Json.orElse_eq_some hrecommendations with rfl | ⟨v, -, hv⟩
    · cases hr
    · obtain ⟨item, hitem⟩ := Json.exists_of_mem_listOf? hv hr
      exact Recommendation.spelled_of_ofJson? hitem
  · cases h

theorem ofJson?_arranged_toJson (harr : ∀ ms, (arrange ms).Perm ms) {rule : Rule}
    (h : rule.Spelled) : ofJson? (rule.toJson.arranged arrange) = some rule := by
  obtain ⟨id, description, queries, recommendations⟩ := rule
  have hqueries : Json.listOf? Query.ofJson?
      (.array (queries.map fun q => q.toJson.arranged arrange)) = some queries :=
    Json.listOf?_map fun q _ => q.ofJson?_arranged_toJson harr
  have hrecommendations : Json.listOf? Recommendation.ofJson?
      (.array (recommendations.map fun r => r.toJson.arranged arrange)) = some recommendations :=
    Json.listOf?_map fun r hr => Recommendation.ofJson?_arranged_toJson harr (h r hr)
  rw [toJson, Json.arranged, ofJson?_object_perm (harr _), ofJson?_object]
  by_cases hd : description = "" <;>
    simp [describedBy, hd, Json.arranged, Json.arrangedMembers, Json.arrangedItems_eq_map,
      Json.given?, Json.sole, Json.required, Json.orElse, hqueries, hrecommendations,
      Function.comp_def]

end Rule

namespace RuleSet

/-- The ways in which rules are written down. -/
inductive Spelling : List Rule → Json → Prop where
  | list (rules : List Rule) : Spelling rules (.array (rules.map Rule.toJson))
  | wrapped (rules : List Rule) :
      Spelling rules (.object [("rules", .array (rules.map Rule.toJson))])
  | one (rule : Rule) : Spelling [rule] rule.toJson

theorem ofJson?_eq_or (v : Json) :
    ofJson? v = (Json.listOf? Rule.ofJson? v).or
      ((wrapped? v).or ((Rule.ofJson? v).map ([·]))) := by
  rw [ofJson?]
  cases Json.listOf? Rule.ofJson? v <;> cases wrapped? v <;> rfl

theorem wrapped?_object (members : List (String × Json)) :
    wrapped? (.object members) =
      (Json.given? ["rules"] members).bind (Json.required (Json.listOf? Rule.ofJson?)) := by
  rw [wrapped?, Json.given?_singleton]
  generalize members.filter (fun m => m.1 == "rules") = found
  match found with
  | [] => rfl
  | [m] => rfl
  | _ :: _ :: _ => rfl

theorem ofJson?_object (members : List (String × Json)) :
    ofJson? (.object members) =
      (wrapped? (.object members)).or ((Rule.ofJson? (.object members)).map ([·])) :=
  ofJson?_eq_or _

theorem exists_of_mem_wrapped? {v : Json} {rules : List Rule} (h : wrapped? v = some rules)
    {rule : Rule} (hrule : rule ∈ rules) : ∃ item, Rule.ofJson? item = some rule := by
  cases v with
  | object members =>
    rw [wrapped?_object, Option.bind_eq_some_iff] at h
    obtain ⟨given, -, hgiven⟩ := h
    obtain ⟨list, rfl, hlist⟩ := Option.bind_eq_some_iff.1 hgiven
    exact Json.exists_of_mem_listOf? hlist hrule
  | _ => cases h

theorem exists_of_mem_ofJson? {v : Json} {rules : List Rule} (h : ofJson? v = some rules)
    {rule : Rule} (hrule : rule ∈ rules) : ∃ item, Rule.ofJson? item = some rule := by
  simp only [ofJson?_eq_or, Option.or_eq_some_iff, Option.map_eq_some_iff] at h
  rcases h with hlist | ⟨-, hwrapped | ⟨-, one, hone, rfl⟩⟩
  · exact Json.exists_of_mem_listOf? hlist hrule
  · exact exists_of_mem_wrapped? hwrapped hrule
  · obtain rfl := List.mem_singleton.1 hrule
    exact ⟨v, hone⟩

section
variable (harr : ∀ ms, (arrange ms).Perm ms) {rules : List Rule}
include harr

theorem listOf?_arranged (h : ∀ rule ∈ rules, rule.Spelled) :
    Json.listOf? Rule.ofJson? ((Json.array (rules.map Rule.toJson)).arranged arrange) =
      some rules := by
  rw [Json.arranged, Json.arrangedItems_eq_map, List.map_map]
  exact Json.listOf?_map fun rule hrule => Rule.ofJson?_arranged_toJson harr (h rule hrule)

theorem ofJson?_arranged_list (h : ∀ rule ∈ rules, rule.Spelled) :
    ofJson? ((Json.array (rules.map Rule.toJson)).arranged arrange) = some rules := by
  rw [ofJson?, listOf?_arranged harr h]

theorem ofJson?_arranged_wrapped (h : ∀ rule ∈ rules, rule.Spelled) :
    ofJson? ((Json.object [("rules", .array (rules.map Rule.toJson))]).arranged arrange) =
      some rules := by
  have hlist := listOf?_arranged harr h
  rw [Json.arranged, Json.arrangedMembers, Json.arrangedMembers, List.perm_singleton.1 (harr _),
    ofJson?_object, wrapped?_object, Json.given?_cons_self (by simp) (by simp)]
  simp only [Option.bind_some, Json.required, hlist, Option.some_or]

theorem ofJson?_arranged_one {rule : Rule} (h : rule.Spelled) :
    ofJson? (rule.toJson.arranged arrange) = some [rule] := by
  have hone := Rule.ofJson?_arranged_toJson harr h
  -- no member of a rule has the name that a list of rules goes by
  have hwrapped : wrapped? (rule.toJson.arranged arrange) = none := by
    rw [Rule.toJson, Json.arranged, wrapped?_object, Json.given?_perm (harr _)]
    by_cases hd : rule.description = "" <;>
      simp [describedBy, hd, Json.arrangedMembers, Json.given?, Json.sole, Json.required]
  rw [Rule.toJson, Json.arranged] at hone hwrapped ⊢
  rw [ofJson?_object, hwrapped, hone]
  rfl

theorem ofJson?_arranged_of_spelling {s : Json} (hs : Spelling rules s)
    (h : ∀ rule ∈ rules, rule.Spelled) : ofJson? (s.arranged arrange) = some rules := by
  cases hs with
  | list => exact ofJson?_arranged_list harr h
  | wrapped => exact ofJson?_arranged_wrapped harr h
  | one rule => exact ofJson?_arranged_one harr (h rule List.mem_cons_self)

end

/-- What was read is what every way of writing it down is read as, however the members of its
objects are ordered. What a document need not say, it may as well say, and the operation that a
name stands for is settled by the name alone. -/
theorem documents_round_trip {v : Json} {rules : List Rule} (h : ofJson? v = some rules)
    (harr : ∀ ms, (arrange ms).Perm ms) :
    (∀ s, Spelling rules s → ofJson? (s.arranged arrange) = some rules) ∧
    (∀ name kept, Operation.ofName name = .unrecognized kept → kept = name) ∧
    (∀ op ∈ Operation.named, ∀ name, Text.upper name = op.name.toList →
      Operation.ofName name = op) ∧
    (∀ field : Trigger.Field,
      Json.LeftOut Trigger.ofJson? field.names field.place field.absent) ∧
    Json.LeftOut Rule.ofJson? ["description"] 1 (.string "") ∧
    Json.LeftOut Recommendation.ofJson? ["description"] 1 (.string "") ∧
    Json.LeftOut Recommendation.ofJson? ["trigger"] 2 .null ∧
    (∀ v r, Recommendation.ofJson? v = some r → v.Lacks ["trigger"] 2 → r.trigger = none) := by
  have hspelled : ∀ rule ∈ rules, rule.Spelled := by
    intro rule hrule
    obtain ⟨item, hitem⟩ := exists_of_mem_ofJson? h hrule
    exact Rule.spelled_of_ofJson? hitem
  exact ⟨fun s hs => ofJson?_arranged_of_spelling harr hs hspelled,
    fun _ _ => Operation.eq_of_ofName_unrecognized,
    fun _ hop _ => Operation.ofName_of_upper hop,
    Trigger.leftOut_field, Rule.leftOut_description, Recommendation.leftOut_description,
    Recommendation.leftOut_trigger, fun _ _ => Recommendation.trigger_eq_none_of_lacks⟩

def mixedDocument : Json :=
  .object [("version", .integer 2), ("rules", .array [
    .array [.string "capacity", .string "", .array [.array [.string "hosts"]], .array [
      .object [
        ("trigger", .object [
          ("child_evals", .array [
            .array [.string "eQ", .string "1"],
            .object [("lhs", .string ""), ("operation", .string "Between")]]),
          ("operation", .string "and")]),
        ("id", .string "standby")],
      .array [.string "size"]]]])]

def mixedRules : List Rule :=
  [{ id := "capacity"
     queries := [{ name := "hosts" }]
     recommendations := [
      { id := "standby"
        trigger := some (.all [
          .compare (.comparison .eq) "1" "", .compare (.unrecognized "Between") "" ""]) },
      { id := "size" }] }]

theorem documents_round_trip_of_mixed :
    ofJson? mixedDocument = some mixedRules ∧
    (∀ ms : List (String × Json), ms.reverse.Perm ms) ∧
    ∀ s, Spelling mixedRules s → ofJson? (s.arranged List.reverse) = some mixedRules := by
  have hread : ofJson? mixedDocument = some mixedRules := rfl
  exact ⟨hread, List.reverse_perm, (documents_round_trip hread List.reverse_perm).1⟩

end RuleSet
end HanaInsights
