import SuiteLint.Abort
import SuiteLint.Proofs.Path.Names

/-!
# The characters of a path

Putting paths together and taking their normal form adds slashes and dots, and no other character.
So a path that is made from parts without any other character, such as the null character, has none.
-/

namespace SuiteLint

namespace Path

theorem mem_toList_join {base p : String} {c : Char} (h : c ∈ (join base p).toList) :
    c ∈ base.toList ∨ c ∈ p.toList ∨ c = '/' := by
  unfold join at h
  split at h
  · exact Or.inr (Or.inl h)
  · split at h
    · rw [String.toList_append, List.mem_append] at h
      exact h.imp_right Or.inl
    · rw [String.toList_append, String.toList_append, List.mem_append, List.mem_append] at h
      rcases h with (h | h) | h
      · exact Or.inl h
      · exact Or.inr (Or.inr (by simpa using h))
      · exact Or.inr (Or.inl h)

theorem mem_toList_normalForm {p : String} {c : Char} (h : c ∈ (normalForm p).toList) :
    c ∈ p.toList ∨ c = '/' ∨ c = '.' := by
  unfold normalForm orHere at h
  split at h
  · exact Or.inr (Or.inr (by simpa using h))
  · rw [String.toList_append, List.mem_append] at h
    rcases h with h | h
    · refine Or.inr (Or.inl ?_)
      revert h
      cases root p <;> simp [Root.text]
    · rcases mem_toList_unsplit h with rfl | ⟨name, hname, hc⟩
      · exact Or.inr (Or.inl rfl)
      · exact Or.inl (mem_toList_of_mem_split (mem_of_mem_collapse hname) hc)

theorem mem_toList_normalize {p : String} {c : Char} (h : c ∈ (normalize p).toList) :
    c ∈ p.toList ∨ c = '/' ∨ c = '.' := by
  rw [normalize, toSlashes, String.toList_ofList, List.mem_map] at h
  obtain ⟨d, hd, rfl⟩ := h
  split
  · exact Or.inr (Or.inl rfl)
  · exact mem_toList_normalForm hd

section

variable {base p : String} {c : Char} (hslash : c ≠ '/')

include hslash

theorem not_mem_join (hbase : c ∉ base.toList) (hp : c ∉ p.toList) : c ∉ (join base p).toList := by
  intro hmem
  rcases mem_toList_join hmem with h | h | h
  · exact hbase h
  · exact hp h
  · exact hslash h

theorem not_mem_normalForm (hdot : c ≠ '.') (hp : c ∉ p.toList) : c ∉ (normalForm p).toList := by
  intro hmem
  rcases mem_toList_normalForm hmem with h | h | h
  · exact hp h
  · exact hslash h
  · exact hdot h

theorem not_mem_normalize (hdot : c ≠ '.') (hp : c ∉ p.toList) : c ∉ (normalize p).toList := by
  intro hmem
  rcases mem_toList_normalize hmem with h | h | h
  · exact hp h
  · exact hslash h
  · exact hdot h

end

end Path

theorem hasNull_eq_false {path : String} : hasNull path = false ↔ '\x00' ∉ path.toList := by
  rw [hasNull, ← Bool.not_eq_true, List.contains_iff_mem]

theorem hasNull_join {base p : String} (hbase : hasNull base = false) (hp : hasNull p = false) :
    hasNull (Path.join base p) = false := by
  rw [hasNull_eq_false] at hbase hp ⊢
  exact Path.not_mem_join (by decide) hbase hp

theorem hasNull_unsplit {names : List String} (h : ∀ name ∈ names, hasNull name = false) :
    hasNull (Path.unsplit names) = false := by
  rw [hasNull_eq_false]
  intro hmem
  rcases Path.mem_toList_unsplit hmem with heq | ⟨name, hname, hc⟩
  · exact absurd heq (by decide)
  · exact hasNull_eq_false.1 (h name hname) hc

theorem hasNull_normalize {p : String} (hp : hasNull p = false) :
    hasNull (Path.normalize p) = false := by
  rw [hasNull_eq_false] at hp ⊢
  exact Path.not_mem_normalize (by decide) (by decide) hp

end SuiteLint
