import Mathlib.Data.List.Forall2
import Mathlib.Data.List.TakeWhile
import HanaInsights.Proofs.Decimal
import HanaInsights.Proofs.TomlDocument
import HanaInsights.Proofs.Utf8
import HanaInsights.Proofs.Wrapped
set_option autoImplicit false

namespace HanaInsights

namespace Path

end Path

namespace RuleFiles

/-- A regular file that is named for one of the two formats; an extension alone is not enough. -/
structure IsSource (e : DirectoryEntry) : Prop where
  regular : e.content ≠ none
  named : ∃ stem, stem ≠ "" ∧ (e.name = stem ++ ".json" ∨ e.name = stem ++ ".toml")

section
variable {entries listed ordered others : List DirectoryEntry}

/-- The rule files of a listing, in the order of the bytes of their names. -/
structure Sources (entries ordered : List DirectoryEntry) : Prop where
  mem_iff : ∀ e, e ∈ ordered ↔ e ∈ entries ∧ IsSource e
  sorted : ordered.Pairwise fun a b => Utf8.encode a.name < Utf8.encode b.name

theorem Sources.nodup (h : Sources entries ordered) : ordered.Nodup :=
  h.sorted.imp fun {a b} hlt (he : a = b) => List.lt_irrefl (Utf8.encode b.name) (he ▸ hlt)

theorem Sources.unique (h : Sources entries ordered) (h' : Sources entries others) :
    ordered = others := by
  have hperm : ordered.Perm others := (List.perm_ext_iff_of_nodup h.nodup h'.nodup).2 fun e => by
    rw [h.mem_iff, h'.mem_iff]
  exact hperm.eq_of_pairwise (fun _ _ _ _ hab hba => absurd hba (List.lt_asymm hab))
    h.sorted h'.sorted

end

section
variable {dir : String} {words : Wording} {e : DirectoryEntry}

/-- What a file that is read and decoded holds. -/
def Decoded (e : DirectoryEntry) (rules : List Rule) : Prop :=
  ∃ bytes text, e.content = some (.ok bytes) ∧ Utf8.decode? bytes = some text ∧
    decode? e.name text = some rules

theorem Decoded.unique {rules rules' : List Rule} (h : Decoded e rules) (h' : Decoded e rules') :
    rules = rules' := by
  obtain ⟨bytes, text, hbytes, htext, hrules⟩ := h
  obtain ⟨bytes', text', hbytes', htext', hrules'⟩ := h'
  obtain rfl : bytes = bytes' := by simpa [hbytes] using hbytes'
  obtain rfl : text = text' := by simpa [htext] using htext'
  exact Option.some.inj (hrules.symm.trans hrules')

end

def hostRules : DirectoryEntry :=
  ⟨"10_hosts.toml", some (.ok (Utf8.encode (Toml.print [("id", .string "a_rule")])))⟩

end RuleFiles
end HanaInsights
