import HanaInsights.Proofs.Record
import HanaInsights.Proofs.TomlLines
import Mathlib.Data.List.Nodup
set_option autoImplicit false

namespace HanaInsights.Toml

def isPair (e : String × Toml) : Bool := !isSection e.2

def pairItems (entries : List (String × Toml)) : Entries :=
  (entries.filter isPair).map fun e => (e.1, .value e.2)

mutual

/-- What a value is held as once all of it has been read. A table without a header of its own stays
implicit. -/
def item : Toml → Item
  | .table entries =>
    .table (!needsHeader entries) false (pairItems entries ++ sectionItems entries)
  | .array items => .tables (elementItems items)
  | v => .value v

def sectionItems : List (String × Toml) → Entries
  | [] => []
  | (key, v) :: rest =>
    if isSection v then (key, item v) :: sectionItems rest else sectionItems rest

def elementItems : List Toml → List Entries
  | [] => []
  | .table entries :: rest => elementItems rest ++ [pairItems entries ++ sectionItems entries]
  | _ :: rest => elementItems rest

end

def tableItems (entries : List (String × Toml)) : Entries :=
  pairItems entries ++ sectionItems entries

/-- Documents that read as they are written: no key of a table twice, an array holds tables or
nothing, and tables are inside each other no deeper than a header can say. -/
inductive Regular : Nat → Toml → Prop
  | leaf {depth : Nat} {v : Toml} (h : Leaf v) : Regular depth v
  | table {depth : Nat} {entries : List (String × Toml)} (hkeys : (entries.map (·.1)).Nodup)
    (h : ∀ e ∈ entries, Regular depth e.2) : Regular (depth + 1) (.table entries)
  | tables {depth : Nat} {elements : List (List (String × Toml))} (hsome : elements ≠ [])
    (hkeys : ∀ entries ∈ elements, (entries.map (·.1)).Nodup)
    (h : ∀ entries ∈ elements, ∀ e ∈ entries, Regular depth e.2) :
    Regular (depth + 1) (.array (elements.map .table))

theorem regular_array_map {α : Type} {depth : Nat} {xs : List α}
    {write : α → List (String × Toml)} (hkeys : ∀ x ∈ xs, ((write x).map (·.1)).Nodup)
    (h : ∀ x ∈ xs, ∀ e ∈ write x, Regular depth e.2) :
    Regular (depth + 1) (.array (xs.map fun x => .table (write x))) := by
  cases xs with
  | nil => exact .leaf .empty
  | cons x rest =>
    have hitems : ((x :: rest).map fun x => Toml.table (write x)) =
        ((x :: rest).map write).map .table := (List.map_map).symm
    rw [hitems]
    refine .tables (by simp) ?_ ?_
    · exact List.forall_mem_map.2 hkeys
    · exact List.forall_mem_map.2 h

theorem isSection_tables {elements : List (List (String × Toml))} (hsome : elements ≠ []) :
    isSection (.array (elements.map .table)) = true := by
  obtain ⟨entries, rest, rfl⟩ := List.exists_cons_of_ne_nil hsome
  simp [isSection, isTable]

theorem Regular.leaf_of_pair {depth : Nat} {v : Toml} (h : Regular depth v)
    (hpair : isSection v = false) : Leaf v := by
  cases h with
  | leaf h => exact h
  | table => cases hpair
  | tables hsome hkeys h =>
    rw [isSection_tables hsome] at hpair
    cases hpair

theorem sectionChars_of_pair {v : Toml} (hpair : isSection v = false) (path : List String) :
    sectionChars path v = [] := by
  cases v with
  | table => cases hpair
  | array items =>
    rw [isSection] at hpair
    rw [sectionChars, if_neg (by simp [hpair])]
  | _ => rfl

/-- A value that is written under a header is read into a key that was not there. -/
def ReadsInto (depth : Nat) (v : Toml) : Prop :=
  ∀ (path : List String) (key : String) (fill : Entries → Entries) (root es : Entries)
    (open_ : List String), path.length + depth < depthLimit → Hole path fill →
    Stage path fill root es → find? key es = none →
    ∃ open', Leads (sectionChars (path ++ [key]) v) ⟨root, open_⟩
      ⟨fill (es ++ [(key, item v)]), open'⟩

section
variable {path : List String} {fill : Entries → Entries} {depth : Nat} (hhole : Hole path fill)
include hhole

theorem leads_pairs {entries : List (String × Toml)}
    (hleaves : ∀ e ∈ entries, isSection e.2 = false → Leaf e.2)
    (hkeys : (entries.map (·.1)).Nodup) {es : Entries}
    (hfresh : ∀ e ∈ entries, find? e.1 es = none) :
    Leads (pairsChars entries) ⟨fill es, path⟩ ⟨fill (es ++ pairItems entries), path⟩ := by
  induction entries generalizing es with
  | nil => simpa [pairItems, pairsChars] using Leads.refl _
  | cons e rest ih =>
    obtain ⟨key, v⟩ := e
    rw [List.forall_mem_cons] at hleaves hfresh
    rw [List.map_cons, List.nodup_cons] at hkeys
    cases hsection : isSection v with
    | true =>
      have hrest := ih hleaves.2 hkeys.2 hfresh.2
      rw [pairsChars, if_pos hsection]
      simpa [pairItems, isPair, hsection] using hrest
    | false =>
      have hpair := leads_pair (hleaves.1 hsection) (hhole.setPair hfresh.1 v)
      have hothers : ∀ e ∈ rest, find? e.1 (es ++ [(key, .value v)]) = none := fun e he =>
        find?_append_other (hfresh.2 e he) (fun h => hkeys.1 (List.mem_map.2 ⟨e, he, h⟩)) _
      have hrest := ih hleaves.2 hkeys.2 hothers
      have htrans := hpair.trans hrest
      rw [pairsChars, if_neg (by simp [hsection])]
      simpa [pairItems, isPair, hsection] using htrans

theorem leads_sections (hdepth : path.length + depth < depthLimit)
    {entries : List (String × Toml)}
    (hread : ∀ e ∈ entries, isSection e.2 = true → ReadsInto depth e.2)
    (hkeys : (entries.map (·.1)).Nodup) {root es : Entries} (hstage : Stage path fill root es)
    (hfresh : ∀ e ∈ entries, isSection e.2 = true → find? e.1 es = none)
    (hroot : sectionItems entries = [] → root = fill es) (open_ : List String) :
    ∃ open', Leads (sectionsChars path entries) ⟨root, open_⟩
      ⟨fill (es ++ sectionItems entries), open'⟩ := by
  induction entries generalizing root es open_ with
  | nil =>
    rw [hroot rfl]
    exact ⟨open_, by simpa [sectionItems, sectionsChars] using Leads.refl _⟩
  | cons e rest ih =>
    obtain ⟨key, v⟩ := e
    rw [List.forall_mem_cons] at hread hfresh
    rw [List.map_cons, List.nodup_cons] at hkeys
    cases hsection : isSection v with
    | true =>
      -- Reading the first section leads to a root that holds it, from which the rest goes on.
      obtain ⟨open₁, hfirst⟩ := hread.1 hsection path key fill root es open_ hdepth hhole hstage
        (hfresh.1 hsection)
      obtain ⟨open₂, hrest⟩ := ih hread.2 hkeys.2 (hhole (es ++ [(key, item v)]))
        (fun e he hs => find?_append_other (hfresh.2 e he hs)
          (fun h => hkeys.1 (List.mem_map.2 ⟨e, he, h⟩)) _) (fun _ => rfl) open₁
      refine ⟨open₂, ?_⟩
      have htrans := hfirst.trans hrest
      rw [sectionsChars, sectionItems, if_pos hsection]
      simpa using htrans
    | false =>
      have hitems : sectionItems ((key, v) :: rest) = sectionItems rest := by
        rw [sectionItems, if_neg (by simp [hsection])]
      rw [hitems] at hroot ⊢
      rw [sectionsChars, sectionChars_of_pair hsection, List.nil_append]
      exact ih hread.2 hkeys.2 hstage hfresh.2 hroot open_

theorem leads_table (hdepth : path.length + depth < depthLimit)
    {entries : List (String × Toml)} (h : ∀ e ∈ entries, Regular depth e.2)
    (hread : ∀ e ∈ entries, isSection e.2 = true → ReadsInto depth e.2)
    (hkeys : (entries.map (·.1)).Nodup) :
    ∃ open', Leads (pairsChars entries ++ sectionsChars path entries) ⟨fill [], path⟩
      ⟨fill (tableItems entries), open'⟩ := by
  have hnone : ∀ e ∈ entries, find? e.1 [] = none := fun _ _ => rfl
  have hpairs := leads_pairs hhole (fun e he => (h e he).leaf_of_pair) hkeys hnone
  have hfresh : ∀ e ∈ entries, isSection e.2 = true → find? e.1 (pairItems entries) = none := by
    intro e he hsection
    rw [find?_eq_none_iff]
    intro hmem
    simp only [pairItems, List.map_map, List.mem_map, List.mem_filter] at hmem
    obtain ⟨other, ⟨hother, hpair⟩, hkey⟩ := hmem
    obtain rfl : other = e := List.inj_on_of_nodup_map hkeys hother he hkey
    rw [isPair, hsection] at hpair
    cases hpair
  obtain ⟨open', hsections⟩ := leads_sections hhole hdepth hread hkeys (hhole (pairItems entries))
    hfresh (fun _ => rfl) path
  exact ⟨open', hpairs.trans hsections⟩

end

section
variable {path : List String} {fill : Entries → Entries} {depth : Nat} {key : String} {es : Entries}

theorem leads_element (hhole : Hole path fill)
    (hdepth : (path ++ [key]).length + depth < depthLimit) (hkey : find? key es = none)
    {entries : List (String × Toml)} (h : ∀ e ∈ entries, Regular depth e.2)
    (hread : ∀ e ∈ entries, isSection e.2 = true → ReadsInto depth e.2)
    (hkeys : (entries.map (·.1)).Nodup) {root : Entries} {earlier : List Entries}
    (hopen : openElement path key root = some (fill (es ++ [(key, .tables ([] :: earlier))])))
    (open_ : List String) :
    ∃ open', Leads (elementHeaderChars (path ++ [key]) ++
        (pairsChars entries ++ sectionsChars (path ++ [key]) entries))
      ⟨root, open_⟩ ⟨fill (es ++ [(key, .tables (tableItems entries :: earlier))]), open'⟩ := by
  have hheader := leads_elementHeader (by omega) hopen open_
  obtain ⟨open', htable⟩ := leads_table (hhole.element hkey earlier) hdepth h hread hkeys
  exact ⟨open', hheader.trans htable⟩

theorem leads_elements (hhole : Hole path fill)
    (hdepth : (path ++ [key]).length + depth < depthLimit) (hkey : find? key es = none)
    {elements : List (List (String × Toml))}
    (h : ∀ entries ∈ elements, ∀ e ∈ entries, Regular depth e.2)
    (hread : ∀ entries ∈ elements, ∀ e ∈ entries, isSection e.2 = true → ReadsInto depth e.2)
    (hkeys : ∀ entries ∈ elements, (entries.map (·.1)).Nodup) (earlier : List Entries)
    (open_ : List String) :
    ∃ open', Leads (elementsChars (path ++ [key]) (elements.map .table))
      ⟨fill (es ++ [(key, .tables earlier)]), open_⟩
      ⟨fill (es ++ [(key, .tables (elementItems (elements.map .table) ++ earlier))]), open'⟩ := by
  induction elements generalizing earlier open_ with
  | nil => exact ⟨open_, Leads.refl _⟩
  | cons entries rest ih =>
    rw [List.forall_mem_cons] at h hread hkeys
    obtain ⟨open₁, hfirst⟩ := leads_element hhole hdepth hkey h.1 hread.1 hkeys.1
      (hhole.openElement hkey earlier) open_
    obtain ⟨open₂, hrest⟩ := ih h.2 hread.2 hkeys.2 (tableItems entries :: earlier) open₁
    refine ⟨open₂, ?_⟩
    have htrans := hfirst.trans hrest
    simpa [elementsChars, elementItems, tableItems] using htrans

end

theorem pairs_of_no_header {entries : List (String × Toml)} (h : needsHeader entries = false) :
    entries ≠ [] ∧ ∀ e ∈ entries, isSection e.2 = true := by
  simpa [needsHeader] using h

theorem sectionItems_ne_nil {entries : List (String × Toml)} (hne : entries ≠ [])
    (h : ∀ e ∈ entries, isSection e.2 = true) : sectionItems entries ≠ [] := by
  obtain ⟨⟨key, v⟩, rest, rfl⟩ := List.exists_cons_of_ne_nil hne
  have hsection := h _ List.mem_cons_self
  rw [sectionItems, if_pos hsection]
  exact List.cons_ne_nil _ _

theorem length_concat_add (path : List String) (key : String) (depth : Nat) :
    (path ++ [key]).length + depth = path.length + (depth + 1) := by
  rw [List.length_append, List.length_singleton, Nat.add_assoc, Nat.add_comm 1 depth]

theorem readsInto_table {depth : Nat} {entries : List (String × Toml)}
    (h : ∀ e ∈ entries, Regular depth e.2)
    (hread : ∀ e ∈ entries, isSection e.2 = true → ReadsInto depth e.2)
    (hkeys : (entries.map (·.1)).Nodup) : ReadsInto (depth + 1) (.table entries) := by
  intro path key fill root es open_ hdepth hhole hstage hkey
  rw [← length_concat_add path key] at hdepth
  rw [sectionChars, item]
  cases hheader : needsHeader entries with
  | true =>
    have hopen := leads_header (by omega) (hstage.openTable hkey) open_
    obtain ⟨open', htable⟩ := leads_table (hhole.table hkey false) hdepth h hread hkeys
    exact ⟨open', by simpa [tableItems] using hopen.trans htable⟩
  | false =>
    obtain ⟨hne, hsections⟩ := pairs_of_no_header hheader
    have hnone : pairItems entries = [] := by
      simpa [pairItems, isPair] using fun key v he => hsections (key, v) he
    -- nothing opens the table, so the first section under it makes it
    obtain ⟨open', htable⟩ := leads_sections (hhole.table hkey true) hdepth hread hkeys
      (hstage.new hkey) (fun _ _ _ => rfl) (fun h => absurd h (sectionItems_ne_nil hne hsections))
      open_
    exact ⟨open', by simpa [hnone] using htable⟩

theorem readsInto_tables {depth : Nat} {elements : List (List (String × Toml))}
    (hsome : elements ≠ []) (h : ∀ entries ∈ elements, ∀ e ∈ entries, Regular depth e.2)
    (hread : ∀ entries ∈ elements, ∀ e ∈ entries, isSection e.2 = true → ReadsInto depth e.2)
    (hkeys : ∀ entries ∈ elements, (entries.map (·.1)).Nodup) :
    ReadsInto (depth + 1) (.array (elements.map .table)) := by
  intro path key fill root es open_ hdepth hhole hstage hkey
  rw [← length_concat_add path key] at hdepth
  have hsection := isSection_tables hsome
  rw [isSection] at hsection
  rw [sectionChars, if_pos hsection]
  obtain ⟨entries, rest, rfl⟩ := List.exists_cons_of_ne_nil hsome
  rw [List.forall_mem_cons] at h hread hkeys
  obtain ⟨open₁, hfirst⟩ := leads_element hhole hdepth hkey h.1 hread.1 hkeys.1
    (hstage.openElement hkey) open_
  obtain ⟨open₂, hrest⟩ := leads_elements hhole hdepth hkey h.2 hread.2 hkeys.2
    [tableItems entries] open₁
  refine ⟨open₂, ?_⟩
  have htrans := hfirst.trans hrest
  simpa [item, elementsChars, elementItems, tableItems] using htrans

theorem readsInto_of_regular {depth : Nat} {v : Toml} (h : Regular depth v)
    (hsection : isSection v = true) : ReadsInto depth v := by
  induction h with
  | leaf h => cases h <;> cases hsection
  | table hkeys h ih => exact readsInto_table h ih hkeys
  | tables hsome hkeys h ih => exact readsInto_tables hsome h ih hkeys

/-- A document is read back with the pairs of each table in front of its tables. -/
theorem read?_print {depth : Nat} {entries : List (String × Toml)}
    (h : Regular (depth + 1) (.table entries)) (hdepth : depth < depthLimit) :
    read? (print entries) = some (.table (entriesToToml (tableItems entries))) := by
  cases h with
  | leaf h => cases h
  | table hkeys h =>
    have hlength : ([] : List String).length + depth < depthLimit := by simpa using hdepth
    obtain ⟨open', hlines⟩ := leads_table hole_root hlength h
      (fun e he => readsInto_of_regular (h e he)) hkeys
    rw [read?, print, String.toList_ofList]
    exact readChars?_of_leads hlines

/-! ## Documents as JSON values -/

theorem entriesToToml_eq_map (es : Entries) :
    entriesToToml es = es.map fun e => (e.1, e.2.toToml) := by
  induction es with
  | nil => rfl
  | cons e rest ih => rw [entriesToToml, ih, List.map_cons]

theorem elementsToToml_eq_map (elements : List Entries) :
    elementsToToml elements = (elements.map fun es => .table (entriesToToml es)).reverse := by
  induction elements with
  | nil => rfl
  | cons es earlier ih => rw [elementsToToml, ih, List.map_cons, List.reverse_cons]

theorem sectionItems_eq_map (entries : List (String × Toml)) :
    sectionItems entries =
      (entries.filter fun e => isSection e.2).map fun e => (e.1, item e.2) := by
  induction entries with
  | nil => rfl
  | cons e rest ih =>
    cases hsection : isSection e.2 <;> simp [sectionItems, hsection, ih]

theorem elementItems_eq_map (elements : List (List (String × Toml))) :
    elementItems (elements.map .table) = (elements.map tableItems).reverse := by
  induction elements with
  | nil => rfl
  | cons entries rest ih =>
    rw [List.map_cons, elementItems, ih, List.map_cons, List.reverse_cons, tableItems]

theorem toJsonItems_eq_map (items : List Toml) : toJsonItems items = items.map toJson := by
  induction items with
  | nil => rfl
  | cons v rest ih => rw [toJsonItems, ih, List.map_cons]

theorem toJson_array_map {α : Type} (write : α → Toml) (xs : List α) :
    (Toml.array (xs.map write)).toJson = .array (xs.map fun x => (write x).toJson) := by
  rw [toJson, toJsonItems_eq_map, List.map_map]
  rfl

theorem toJsonEntries_eq_map (entries : List (String × Toml)) :
    toJsonEntries entries = entries.map fun e => (e.1, e.2.toJson) := by
  induction entries with
  | nil => rfl
  | cons e rest ih => rw [toJsonEntries, ih, List.map_cons]

end HanaInsights.Toml

namespace HanaInsights.Json

def isObject : Json → Bool
  | .object _ => true
  | _ => false

def isSection : Json → Bool
  | .object _ => true
  | .array items => !items.isEmpty && items.all isObject
  | _ => false

def pairsFirst (members : List (String × Json)) : List (String × Json) :=
  members.filter (fun m => !isSection m.2) ++ members.filter (fun m => isSection m.2)

theorem pairsFirst_perm (members : List (String × Json)) : (pairsFirst members).Perm members := by
  have hperm := List.filter_append_perm (fun m : String × Json => !isSection m.2) members
  simpa [pairsFirst] using hperm

end HanaInsights.Json

namespace HanaInsights.Toml

variable {depth : Nat}

theorem Leaf.toToml_item {v : Toml} (h : Leaf v) : (item v).toToml = v := by
  cases h <;> rfl

def itemJson (v : Toml) : Json := (item v).toToml.toJson

theorem isSection_itemJson {v : Toml} (h : Regular depth v) :
    (itemJson v).isSection = isSection v := by
  cases h with
  | leaf h => cases h <;> rfl
  | table => rfl
  | @tables depth elements =>
    simp [itemJson, item, Item.toToml, elementItems_eq_map, elementsToToml_eq_map, toJson,
      toJsonItems_eq_map, Json.isSection, isSection, Json.isObject, isTable, Function.comp_def]

theorem toJsonEntries_pairItems {entries : List (String × Toml)}
    (h : ∀ e ∈ entries, Regular depth e.2) :
    toJsonEntries (entriesToToml (pairItems entries)) =
      (entries.filter isPair).map fun e => (e.1, itemJson e.2) := by
  rw [pairItems, entriesToToml_eq_map, toJsonEntries_eq_map, List.map_map, List.map_map]
  refine List.map_congr_left fun e he => ?_
  obtain ⟨he, hpair⟩ := List.mem_filter.1 he
  have hleaf := (h e he).leaf_of_pair (by simpa [isPair] using hpair)
  simp [itemJson, hleaf.toToml_item, Item.toToml]

theorem toJsonEntries_sectionItems (entries : List (String × Toml)) :
    toJsonEntries (entriesToToml (sectionItems entries)) =
      (entries.filter fun e => isSection e.2).map fun e => (e.1, itemJson e.2) := by
  rw [sectionItems_eq_map, entriesToToml_eq_map, toJsonEntries_eq_map, List.map_map, List.map_map]
  rfl

theorem toJsonEntries_tableItems {entries : List (String × Toml)}
    (h : ∀ e ∈ entries, Regular depth e.2) :
    toJsonEntries (entriesToToml (tableItems entries)) =
      Json.pairsFirst (entries.map fun e => (e.1, itemJson e.2)) := by
  have hkind : ∀ e ∈ entries, (itemJson e.2).isSection = isSection e.2 :=
    fun e he => isSection_itemJson (h e he)
  have hpairs : (entries.filter fun e => !(itemJson e.2).isSection) = entries.filter isPair :=
    List.filter_congr fun e he => by rw [hkind e he, isPair]
  have hsections : (entries.filter fun e => (itemJson e.2).isSection) =
      entries.filter fun e => isSection e.2 :=
    List.filter_congr hkind
  have happend : toJsonEntries (entriesToToml (tableItems entries)) =
      toJsonEntries (entriesToToml (pairItems entries)) ++
        toJsonEntries (entriesToToml (sectionItems entries)) := by
    simp [tableItems, entriesToToml_eq_map, toJsonEntries_eq_map]
  rw [happend, toJsonEntries_pairItems h, toJsonEntries_sectionItems, ← hpairs, ← hsections,
    Json.pairsFirst, List.filter_map, List.filter_map]
  rfl

theorem toJsonEntries_tableItems_eq_arranged {entries : List (String × Toml)}
    (h : ∀ e ∈ entries, Regular depth e.2)
    (ih : ∀ e ∈ entries, itemJson e.2 = e.2.toJson.arranged Json.pairsFirst) :
    toJsonEntries (entriesToToml (tableItems entries)) =
      Json.pairsFirst (Json.arrangedMembers Json.pairsFirst (toJsonEntries entries)) := by
  have hmap : (entries.map fun e => (e.1, itemJson e.2)) =
      entries.map fun e => (e.1, e.2.toJson.arranged Json.pairsFirst) :=
    List.map_congr_left fun e he => by rw [ih e he]
  rw [toJsonEntries_tableItems h, hmap, Json.arrangedMembers_eq_map, toJsonEntries_eq_map,
    List.map_map]
  rfl

theorem itemJson_eq_arranged {v : Toml} (h : Regular depth v) :
    itemJson v = v.toJson.arranged Json.pairsFirst := by
  induction h with
  | leaf h => cases h <;> rfl
  | @table depth entries hkeys h ih =>
    have htable := toJsonEntries_tableItems_eq_arranged h ih
    rw [toJson, Json.arranged, ← htable]
    simp only [itemJson, item, Item.toToml, toJson, tableItems]
  | @tables depth elements hsome hkeys h ih =>
    have htable : ∀ entries ∈ elements,
        toJson (.table (entriesToToml (tableItems entries))) =
          (toJson (.table entries)).arranged Json.pairsFirst := by
      intro entries hentries
      rw [toJson, toJson, Json.arranged,
        toJsonEntries_tableItems_eq_arranged (h entries hentries) (ih entries hentries)]
    have hitem : itemJson (.array (elements.map .table)) = .array
        (elements.map fun entries => toJson (.table (entriesToToml (tableItems entries)))) := by
      simp [itemJson, item, Item.toToml, elementItems_eq_map, elementsToToml_eq_map, toJson,
        toJsonItems_eq_map, Function.comp_def]
    rw [hitem, toJson, Json.arranged, toJsonItems_eq_map, Json.arrangedItems_eq_map, List.map_map,
      List.map_map, List.map_congr_left htable]
    rfl

/-- A printed document is read back up to the order of entries. -/
theorem exists_read?_print {entries : List (String × Toml)}
    (h : Regular (depth + 1) (.table entries)) (hdepth : depth < depthLimit) :
    ∃ v, read? (print entries) = some v ∧
      v.toJson = (toJson (.table entries)).arranged Json.pairsFirst := by
  refine ⟨_, read?_print h hdepth, ?_⟩
  rw [← itemJson_eq_arranged h, itemJson, item, Item.toToml, tableItems]

end HanaInsights.Toml
