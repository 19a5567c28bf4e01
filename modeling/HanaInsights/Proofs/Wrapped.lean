import HanaInsights.Proofs.Documents
import HanaInsights.Rule.Files
set_option autoImplicit false

namespace HanaInsights

theorem Rule.id_mem_of_ofJson? {members : List (String × Json)} {rule : Rule}
    (h : ofJson? (.object members) = some rule) : ("id", .string rule.id) ∈ members := by
  simp only [ofJson?_object, Option.bind_eq_some_iff, Option.some.injEq] at h
  obtain ⟨id, ⟨given, hgiven, hid⟩, -, -, -, -, -, -, rfl⟩ := h
  obtain ⟨v, rfl, hv⟩ := Option.bind_eq_some_iff.1 hid
  obtain ⟨name, hname, hmem⟩ := Json.mem_of_given? hgiven
  obtain rfl := List.mem_singleton.1 hname
  cases v <;> cases hv
  exact hmem

namespace RuleSet

variable {members : List (String × Json)} {rules : List Rule}

/-- The one member of that name is an array, and its items are read as the rules, in order. -/
def Lists (members : List (String × Json)) (rules : List Rule) : Prop :=
  ∃ items, members.filter (fun m => m.1 == "rules") = [("rules", .array items)] ∧
    List.Forall₂ (fun item rule => Rule.ofJson? item = some rule) items rules

theorem wrapped?_eq_some_iff : wrapped? (.object members) = some rules ↔ Lists members rules := by
  constructor
  · intro h
    rw [wrapped?] at h
    split at h
    · next m hone =>
      obtain ⟨items, hitems, hread⟩ := Json.listOf?_eq_some_iff.1 h
      have hname : m ∈ members.filter fun m => m.1 == "rules" := hone ▸ List.mem_singleton_self m
      rw [List.mem_filter, beq_iff_eq] at hname
      refine ⟨items, ?_, hread⟩
      rw [hone, ← hname.2, ← hitems]
    · cases h
  · rintro ⟨items, hone, hread⟩
    rw [wrapped?, hone]
    exact Json.listOf?_eq_some_iff.2 ⟨items, rfl, hread⟩

theorem not_lists_iff : (¬ ∃ listed, Lists members listed) ↔ wrapped? (.object members) = none := by
  simp only [← wrapped?_eq_some_iff, Option.eq_none_iff_forall_ne_some, not_exists, ne_eq]

def besides (members : List (String × Json)) : List (String × Json) :=
  members.filter fun m => m.1 != "rules"

theorem ofJson?_besides :
    Rule.ofJson? (.object (besides members)) = Rule.ofJson? (.object members) := by
  have hgiven : ∀ name, name ≠ "rules" →
      Json.given? [name] (besides members) = Json.given? [name] members := by
    intro name hname
    refine Json.given?_filter fun m hm => ?_
    rw [List.mem_singleton.1 hm, bne_iff_ne]
    exact hname
  simp [Rule.ofJson?_object, hgiven]

theorem ofJson?_object_eq_some_iff :
    ofJson? (.object members) = some rules ↔ Lists members rules ∨
      (¬ ∃ listed, Lists members listed) ∧
        ∃ rule, Rule.ofJson? (.object (besides members)) = some rule ∧ [rule] = rules := by
  rw [ofJson?_object, Option.or_eq_some_iff, wrapped?_eq_some_iff, not_lists_iff,
    Option.map_eq_some_iff, ofJson?_besides]

theorem ofJson?_object_eq_none_iff :
    ofJson? (.object members) = none ↔ (¬ ∃ listed, Lists members listed) ∧
      Rule.ofJson? (.object (besides members)) = none := by
  rw [ofJson?_object, Option.or_eq_none_iff, not_lists_iff, Option.map_eq_none_iff, ofJson?_besides]

end RuleSet

namespace RuleFiles

def document? (name text : String) : Option Json :=
  if Path.extension? name = some "toml" then (Toml.read? text).map Toml.toJson
  else Json.read? text

theorem decode?_eq_bind (name text : String) :
    decode? name text = (document? name text).bind RuleSet.ofJson? := by
  rw [decode?, document?]
  split
  · rw [Option.bind_map]
    rfl
  · rfl

theorem loadFile_of_decode? {dir name text : String} {bytes : List UInt8} {words : Wording}
    (htext : FileTree.textOf bytes = .ok text) (h : decode? name text = none) :
    loadFile dir ⟨name, some (.ok bytes)⟩ words =
      .error (.malformed (Path.join dir name) (words.rules (source name) text)) := by
  simp [loadFile, htext, h]

theorem value_loadAll_of_error {dir : String} {words : Wording} {before after : List DirectoryEntry}
    {e : DirectoryEntry} {fault : RuleError} (h : loadFile dir e words = .error fault)
    (hbefore : ∀ b ∈ before, ∃ loaded, loadFile dir b words = .ok loaded) :
    (loadAll dir words (before ++ e :: after)).value = .error fault := by
  induction before with
  | nil => simp [loadAll, h]
  | cons b before ih =>
    obtain ⟨loaded, hb⟩ := hbefore b List.mem_cons_self
    have hrest := ih fun c hc => hbefore c (List.mem_cons_of_mem b hc)
    simp [loadAll, hb, hrest]

/-- A list that is read is all that a document says. One that is not is an error, unless the other
members make up a rule, which takes an id of its own. -/
theorem listed_rules_kept_or_refused {name text : String} {members : List (String × Json)}
    (hdocument : document? name text = some (.object members)) :
    (∀ rules, decode? name text = some rules ↔ RuleSet.Lists members rules ∨
      (¬ ∃ listed, RuleSet.Lists members listed) ∧
        ∃ rule, Rule.ofJson? (.object (RuleSet.besides members)) = some rule ∧ [rule] = rules) ∧
    ((¬ ∃ listed, RuleSet.Lists members listed) → (∀ id, ("id", .string id) ∉ members) →
      decode? name text = none) ∧
    (decode? name text = none → ∀ words files dir found bytes before after,
      FileTree.list files dir = .ok found → FileTree.textOf bytes = .ok text →
      inNameOrder ((listing found).filter isRuleFile) =
        before ++ ⟨name, some (.ok bytes)⟩ :: after →
      (∀ b ∈ before, ∃ loaded, loadFile dir b words = .ok loaded) →
      (load files dir words).value =
        .error (.malformed (Path.join dir name) (words.rules (source name) text))) := by
  have hdecode : decode? name text = RuleSet.ofJson? (.object members) := by
    rw [decode?_eq_bind, hdocument, Option.bind_some]
  refine ⟨fun rules => ?_, fun hlists hid => ?_,
    fun hnone words files dir found bytes before after hfound htext hsplit hbefore => ?_⟩
  · rw [hdecode, RuleSet.ofJson?_object_eq_some_iff]
  · rw [hdecode, RuleSet.ofJson?_object_eq_none_iff]
    refine ⟨hlists, Option.eq_none_iff_forall_ne_some.2 fun rule hrule => ?_⟩
    exact hid rule.id (List.mem_of_mem_filter (Rule.id_mem_of_ofJson? hrule))
  · have hload : loadFile dir ⟨name, some (.ok bytes)⟩ words =
        .error (.malformed (Path.join dir name) (words.rules (source name) text)) :=
      loadFile_of_decode? htext hnone
    have hall := hsplit ▸ value_loadAll_of_error hload hbefore
    simp [load, ofListing, hfound, hall]

def unreadList : String × Json :=
  ("rules", .array [.object [("id", .string "a")], .object [("id", .integer 1)]])

def unreadListText : String := "\"rules\": [\x7b\"id\": \"a\"\x7d, \x7b\"id\": 1\x7d]"

theorem listed_rules_refused_without_id :
    document? "r.json" ("\x7b" ++ unreadListText ++ "\x7d") = some (.object [unreadList]) ∧
    decode? "r.json" ("\x7b" ++ unreadListText ++ "\x7d") = none := by
  have hdocument :
      document? "r.json" ("\x7b" ++ unreadListText ++ "\x7d") = some (.object [unreadList]) := rfl
  have hlists : ¬ ∃ listed, RuleSet.Lists [unreadList] listed := RuleSet.not_lists_iff.2 rfl
  exact ⟨hdocument, (listed_rules_kept_or_refused hdocument).2.1 hlists (by simp [unreadList])⟩

/-- Beside an id a list that is not read is passed over. -/
theorem unread_list_passed_over :
    ¬ ∀ name text members rules, document? name text = some (.object members) →
      (∃ m ∈ members, m.1 = "rules") → decode? name text = some rules →
      RuleSet.Lists members rules := by
  intro h
  have hlists : RuleSet.Lists [("id", .string "solo"), unreadList] [{ id := "solo" }] :=
    h "r.json" ("\x7b\"id\": \"solo\", " ++ unreadListText ++ "\x7d") _ _ rfl
      ⟨unreadList, by simp, rfl⟩ rfl
  have hnone : RuleSet.wrapped? (.object [("id", .string "solo"), unreadList]) = none := rfl
  exact RuleSet.not_lists_iff.2 hnone ⟨_, hlists⟩

end RuleFiles
end HanaInsights
