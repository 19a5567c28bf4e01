import HanaInsights.Proofs.TomlValue
set_option autoImplicit false

/-!
The lines of TOML documents. A header leads to a place in the document and what follows it changes
that place alone, so reading is followed place by place: a document under construction is what it is
at a place, put back into its surroundings.
-/

namespace HanaInsights.Toml

theorem find?_eq_none_iff {key : String} {es : Entries} :
    find? key es = none ↔ key ∉ es.map (·.1) := by
  induction es with
  | nil => simp [find?]
  | cons e rest ih =>
    by_cases hk : e.1 = key
    · simp [find?, hk]
    · simp [find?, hk, ih, Ne.symm hk]

theorem find?_append_other {key other : String} {es : Entries} (h : find? key es = none)
    (hne : key ≠ other) (item : Item) : find? key (es ++ [(other, item)]) = none := by
  rw [find?_eq_none_iff] at h ⊢
  simp [h, hne]

section
variable {key : String} {es : Entries} (h : find? key es = none) (item : Item)
include h

theorem put_new : put key item es = es ++ [(key, item)] := by
  induction es with
  | nil => rfl
  | cons e rest ih =>
    by_cases hk : e.1 = key
    · simp [find?, hk] at h
    · have hrest : find? key rest = none := by simpa [find?, hk] using h
      rw [put, if_neg hk, ih hrest, List.cons_append]

theorem find?_last : find? key (es ++ [(key, item)]) = some item := by
  induction es with
  | nil => simp [find?]
  | cons e rest ih =>
    by_cases hk : e.1 = key
    · simp [find?, hk] at h
    · have hrest : find? key rest = none := by simpa [find?, hk] using h
      rw [List.cons_append, find?, if_neg hk, ih hrest]

theorem put_last (item' : Item) : put key item' (es ++ [(key, item)]) = es ++ [(key, item')] := by
  induction es with
  | nil => simp [put]
  | cons e rest ih =>
    by_cases hk : e.1 = key
    · simp [find?, hk] at h
    · have hrest : find? key rest = none := by simpa [find?, hk] using h
      rw [List.cons_append, put, if_neg hk, ih hrest, List.cons_append]

end

/-- What a change at the end of a path sees, and what becomes of the whole. -/
def Stage (path : List String) (fill : Entries → Entries) (root es : Entries) : Prop :=
  ∀ change, adjust false change path false root = (change false es).map fill

/-- The surroundings of a place, which no change there affects. -/
def Hole (path : List String) (fill : Entries → Entries) : Prop :=
  ∀ es, Stage path fill (fill es) es

theorem adjust_append (change : Bool → Entries → Option Entries) (path : List String) (key : String)
    (isDotted : Bool) (root : Entries) :
    adjust false change (path ++ [key]) isDotted root =
      adjust false (fun dotted es => adjust false change [key] dotted es) path isDotted root := by
  induction path generalizing isDotted root with
  | nil => rfl
  | cons first path ih =>
    simp only [List.cons_append, adjust, ih]

theorem hole_root : Hole [] id := fun _ _ => by simp [adjust]

section
variable {path : List String} {fill : Entries → Entries} {root es : Entries} {key : String}

theorem Stage.new (h : Stage path fill root es) (hkey : find? key es = none) :
    Stage (path ++ [key]) (fun inner => fill (es ++ [(key, .table true false inner)])) root [] := by
  intro change
  rw [adjust_append, h]
  cases hchange : change false [] <;> simp [adjust, hkey, hchange, put_new hkey]

theorem Hole.table (h : Hole path fill) (hkey : find? key es = none) (implicit : Bool) :
    Hole (path ++ [key]) fun inner => fill (es ++ [(key, .table implicit false inner)]) := by
  intro inner change
  rw [adjust_append, h]
  cases hchange : change false inner <;>
    simp [adjust, find?_last hkey, hchange, put_last hkey]

theorem Hole.element (h : Hole path fill) (hkey : find? key es = none) (earlier : List Entries) :
    Hole (path ++ [key]) fun inner => fill (es ++ [(key, .tables (inner :: earlier))]) := by
  intro inner change
  rw [adjust_append, h]
  cases hchange : change false inner <;>
    simp [adjust, find?_last hkey, hchange, put_last hkey]

theorem Stage.openTable (h : Stage path fill root es) (hkey : find? key es = none) :
    openTable path key root = some (fill (es ++ [(key, .table false false [])])) := by
  rw [Toml.openTable, h, hkey, put_new hkey, Option.map_some]

theorem Stage.openElement (h : Stage path fill root es) (hkey : find? key es = none) :
    openElement path key root = some (fill (es ++ [(key, .tables [[]])])) := by
  rw [Toml.openElement, h, hkey, put_new hkey, Option.map_some]

theorem Hole.openElement (h : Hole path fill) (hkey : find? key es = none)
    (elements : List Entries) :
    openElement path key (fill (es ++ [(key, .tables elements)])) =
      some (fill (es ++ [(key, .tables ([] :: elements))])) := by
  rw [Toml.openElement, h, find?_last hkey]
  simp [put_last hkey]

theorem Hole.setPair (h : Hole path fill) (hkey : find? key es = none) (v : Toml) :
    adjust false (fun _ entries => setPair [] key (.value v) entries) path false (fill es) =
      some (fill (es ++ [(key, .value v)])) := by
  rw [h]
  simp [Toml.setPair, adjust, hkey, put_new hkey]

end

/-- Whole lines that lead from one draft to another, whatever comes after them. -/
structure Leads (text : List Char) (d d' : Draft) : Prop where
  unmarked : text.head? ≠ some '\uFEFF'
  lines : ∃ n ≤ text.length, ∀ fuel rest, lines? (fuel + n) d (text ++ rest) = lines? fuel d' rest

theorem Leads.refl (d : Draft) : Leads [] d d :=
  ⟨nofun, 0, Nat.le_refl 0, fun _ _ => rfl⟩

theorem Leads.trans {text text' : List Char} {d d' d'' : Draft} (h : Leads text d d')
    (h' : Leads text' d' d'') : Leads (text ++ text') d d'' := by
  obtain ⟨hmark, n, hn, hlines⟩ := h
  obtain ⟨hmark', n', hn', hlines'⟩ := h'
  constructor
  · rw [List.head?_append]
    cases hhead : text.head? with
    | none => simpa using hmark'
    | some c => simpa [hhead] using hmark
  · refine ⟨n' + n, by rw [List.length_append]; omega, fun fuel rest => ?_⟩
    rw [List.append_assoc, ← Nat.add_assoc, hlines, hlines']

theorem Leads.of_line {text cs : List Char} {c : Char} {d d' : Draft} (htext : text = c :: cs)
    (hmark : c ≠ '\uFEFF') (h : ∀ rest, line? d (text ++ rest) = some (d', rest)) :
    Leads text d d' := by
  subst htext
  refine ⟨by simpa using hmark, 1, by simp, fun fuel rest => ?_⟩
  have hline := h rest
  rw [List.cons_append] at hline ⊢
  rw [lines?, hline]
  exact List.cons_ne_nil _ _

theorem skipByteOrderMark_of_head {text : List Char} (h : text.head? ≠ some '\uFEFF') :
    skipByteOrderMark text = text := by
  cases text with
  | nil => rfl
  | cons c cs =>
    rw [skipByteOrderMark]
    rintro rest hcs
    rw [hcs] at h
    exact h rfl

theorem readChars?_of_leads {text : List Char} {d : Draft} (h : Leads text {} d) :
    readChars? text = some (.table (entriesToToml d.root)) := by
  obtain ⟨hmark, n, hn, hlines⟩ := h
  have hread := hlines (text.length - n) []
  rw [List.append_nil, Nat.sub_add_cancel hn] at hread
  rw [readChars?, skipByteOrderMark_of_head hmark, hread, lines?, Option.map_some]

theorem leads_blank (d : Draft) : Leads ['\n'] d d := .of_line rfl (by decide) fun _ => rfl

theorem splitLast?_append (path : List String) (key : String) :
    splitLast? (path ++ [key]) = some (path, key) := by
  simp [splitLast?]

section
variable {path : List String} {key : String} {root root' : Entries}

theorem key?_header (hdepth : (path ++ [key]).length < depthLimit) (rest : List Char) :
    key? (pathChars (path ++ [key]) ++ ']' :: rest) = some (path ++ [key], ']' :: rest) :=
  key?_pathChars (List.append_ne_nil_of_right_ne_nil _ (by simp)) hdepth
    (forall_head?_cons (by rfl) rest) (by rintro tail h; cases h)

theorem exists_cons_pathChars {path : List String} (hpath : path ≠ []) :
    ∃ c tail, pathChars path = c :: tail ∧ c ≠ '[' := by
  obtain ⟨first, rest, rfl⟩ := List.exists_cons_of_ne_nil hpath
  obtain ⟨c, tail, htext, -, hc⟩ := head_keyChars first.toList
  have hbracket : c ≠ '[' := fun h => hc (h ▸ List.mem_cons_self)
  cases rest with
  | nil => exact ⟨c, tail, by rw [pathChars, htext], hbracket⟩
  | cons second rest =>
    exact ⟨c, tail ++ '.' :: pathChars (second :: rest), by simp [pathChars, htext], hbracket⟩

theorem headerLine?_path (hdepth : (path ++ [key]).length < depthLimit)
    (hopen : openTable path key root = some root') (open_ : List String) (rest : List Char) :
    headerLine? ⟨root, open_⟩ (pathChars (path ++ [key]) ++ ']' :: '\n' :: rest) =
      some (⟨root', path ++ [key]⟩, rest) := by
  have hkey := key?_header hdepth ('\n' :: rest)
  simp only [headerLine?, hkey, expect?, Option.bind_eq_bind, Option.bind_some, if_true,
    splitLast?_append, hopen]
  rfl

theorem leads_header (hdepth : (path ++ [key]).length < depthLimit)
    (hopen : openTable path key root = some root') (open_ : List String) :
    Leads (headerChars (path ++ [key])) ⟨root, open_⟩ ⟨root', path ++ [key]⟩ := by
  have hchars : headerChars (path ++ [key]) =
      ['\n'] ++ '[' :: (pathChars (path ++ [key]) ++ [']', '\n']) := rfl
  rw [hchars]
  refine (leads_blank _).trans (.of_line rfl (by decide) fun rest => ?_)
  have hpath : path ++ [key] ≠ [] := by simp
  obtain ⟨c, tail, htext, hc⟩ := exists_cons_pathChars hpath
  have hcs : '[' :: (pathChars (path ++ [key]) ++ [']', '\n']) ++ rest =
      '[' :: (pathChars (path ++ [key]) ++ ']' :: '\n' :: rest) := by simp
  rw [hcs, line?, skipSpace_of_head rfl]
  split
  next hbrackets =>
    rw [htext] at hbrackets
    exact absurd (List.cons.inj (List.cons.inj hbrackets).2).1 hc
  next hbracket =>
    rw [← (List.cons.inj hbracket).2]
    exact headerLine?_path hdepth hopen open_ rest
  next hother => exact absurd rfl (hother _)

theorem elementLine?_path (hdepth : (path ++ [key]).length < depthLimit)
    (hopen : openElement path key root = some root') (open_ : List String) (rest : List Char) :
    elementLine? ⟨root, open_⟩ (pathChars (path ++ [key]) ++ ']' :: ']' :: '\n' :: rest) =
      some (⟨root', path ++ [key]⟩, rest) := by
  have hkey := key?_header hdepth (']' :: '\n' :: rest)
  simp only [elementLine?, hkey, expect?, Option.bind_eq_bind, Option.bind_some, if_true,
    splitLast?_append, hopen]
  rfl

theorem leads_elementHeader (hdepth : (path ++ [key]).length < depthLimit)
    (hopen : openElement path key root = some root') (open_ : List String) :
    Leads (elementHeaderChars (path ++ [key])) ⟨root, open_⟩ ⟨root', path ++ [key]⟩ := by
  have hchars : elementHeaderChars (path ++ [key]) =
      ['\n'] ++ '[' :: '[' :: (pathChars (path ++ [key]) ++ [']', ']', '\n']) := rfl
  rw [hchars]
  refine (leads_blank _).trans (.of_line rfl (by decide) fun rest => ?_)
  have hcs : '[' :: '[' :: (pathChars (path ++ [key]) ++ [']', ']', '\n']) ++ rest =
      '[' :: '[' :: (pathChars (path ++ [key]) ++ ']' :: ']' :: '\n' :: rest) := by simp
  rw [hcs, line?, skipSpace_of_head rfl]
  exact elementLine?_path hdepth hopen open_ rest

theorem endOfLine?_of_head {c : Char} (hspace : isSpace c = false) (hc : c ∉ ['#', '\n', '\r'])
    (cs : List Char) : endOfLine? (c :: cs) = none := by
  simp only [List.mem_cons, List.not_mem_nil, or_false, not_or] at hc
  obtain ⟨hcomment, hfeed, hreturn⟩ := hc
  have hskip : skipComment (c :: cs) = c :: cs := by
    rw [skipComment]
    exact fun rest h => hcomment (List.cons.inj h).1
  rw [endOfLine?, skipSpace_of_head hspace, hskip, lineEnd?]
  · exact fun h => by cases h
  · exact fun rest h => hfeed (List.cons.inj h).1
  · exact fun rest h => hreturn (List.cons.inj h).1

theorem pairLine?_leaf {v : Toml} (h : Leaf v)
    (hset : adjust false (fun _ entries => setPair [] key (.value v) entries) path false root =
      some root') (rest : List Char) :
    pairLine? ⟨root, path⟩
      (keyChars key.toList ++ ' ' :: '=' :: ' ' :: (valueChars v ++ '\n' :: rest)) =
        some (⟨root', path⟩, rest) := by
  have hkey : key? (keyChars key.toList ++ ' ' :: '=' :: ' ' :: (valueChars v ++ '\n' :: rest)) =
      some ([key], '=' :: ' ' :: (valueChars v ++ '\n' :: rest)) :=
    @key?_pathChars [key] _ (List.cons_ne_nil _ _) (by simp [depthLimit])
      (forall_head?_cons (by rfl) _)
      (by rintro tail h; cases h)
  have hskip : ∀ cs, skipSpace (' ' :: cs) = skipSpace cs := fun _ => rfl
  have hvalue := value?_leaf h rest
  have hsplit : splitLast? [key] = some ([], key) := splitLast?_append [] key
  have hend : endOfLine? ('\n' :: rest) = some rest := rfl
  simp only [pairLine?, pair?, hkey, expect?, if_true, Option.bind_eq_bind, Option.bind_some,
    hskip, hvalue, hsplit, hend, hset]

theorem leads_pair {v : Toml} (h : Leaf v)
    (hset : adjust false (fun _ entries => setPair [] key (.value v) entries) path false root =
      some root') :
    Leads (keyChars key.toList ++ ' ' :: '=' :: ' ' :: valueChars v ++ ['\n']) ⟨root, path⟩
      ⟨root', path⟩ := by
  obtain ⟨c, tail, htext, hspace, hc⟩ := head_keyChars key.toList
  simp only [List.mem_cons, List.not_mem_nil, or_false, not_or] at hc
  obtain ⟨hbracket, hcomment, hfeed, hreturn, hmark⟩ := hc
  have hchars : keyChars key.toList ++ ' ' :: '=' :: ' ' :: valueChars v ++ ['\n'] =
      c :: (tail ++ ' ' :: '=' :: ' ' :: valueChars v ++ ['\n']) := by simp [htext]
  refine .of_line hchars hmark fun rest => ?_
  have hpair := pairLine?_leaf h hset rest
  have hcs : keyChars key.toList ++ ' ' :: '=' :: ' ' :: valueChars v ++ ['\n'] ++ rest =
      keyChars key.toList ++ ' ' :: '=' :: ' ' :: (valueChars v ++ '\n' :: rest) := by simp
  rw [hcs, line?, skipSpace_keyChars]
  rw [htext, List.cons_append] at hpair ⊢
  split
  next hhead => exact absurd (List.cons.inj hhead).1 hbracket
  next hhead => exact absurd (List.cons.inj hhead).1 hbracket
  next =>
    rw [endOfLine?_of_head hspace (by simp [hcomment, hfeed, hreturn])]
    exact hpair

end

end HanaInsights.Toml
