import SuiteLint.Discovery
import SuiteLint.Proofs.Files.Spelled
import SuiteLint.Proofs.Path.Names

/-!
# What exclusions cover

An exclusion looks at the names of a path and never at a part of one. It covers the paths that have
it as a name and, if it has a slash, those whose names start with the names of its normal form. So
an exclusion that covers a directory covers everything below it, and leaving out a directory leaves
out no more than the exclusion asks for.
-/

namespace SuiteLint.Exclusion

theorem covers_iff {exclusion path : String} :
    covers exclusion path = true ↔ exclusion ∈ Path.split path ∨
      '/' ∈ exclusion.toList ∧
        Path.split (Path.normalize exclusion) <+: Path.split path := by
  rw [Path.split_prefix_split_iff]
  unfold covers
  by_cases hname : exclusion ∈ Path.split path
  · simp [hname]
  · by_cases hslash : '/' ∈ exclusion.toList <;> simp [hname, hslash]

/-- An exclusion without a slash may hold halves of surrogate pairs, and covers the paths that have
it as a name even so. -/
theorem covers_plainText_iff {s : List Json.Symbol} {path : String} (hnull : hasNull path = false)
    (hslash : .char '/' ∉ s) :
    covers (Json.plainText s) path = true ↔ ∃ name ∈ Path.split path, s = Json.symbols name := by
  have hplain : '/' ∉ (Json.plainText s).toList := by
    rw [Json.plainText, String.toList_ofList]
    intro hmem
    obtain ⟨symbol, hsymbol, hchar⟩ := List.mem_map.1 hmem
    cases symbol with
    | char c =>
      have hc : c = '/' := hchar
      exact hslash (hc ▸ hsymbol)
    | half unit =>
      have hnot : '\x00' = '/' := hchar
      exact absurd hnot (by decide)
  have hname {name : String} (hmem : name ∈ Path.split path) : hasNull name = false := by
    simp only [hasNull, List.contains_eq_mem, decide_eq_false_iff_not] at hnull ⊢
    exact fun hc => hnull (Path.mem_toList_of_mem_split hmem hc)
  rw [covers_iff]
  constructor
  · intro h
    have hmem := h.resolve_right fun hdirectory => hplain hdirectory.1
    exact ⟨_, hmem, (Files.plainText_eq_iff (hname hmem)).1 rfl⟩
  · intro h
    obtain ⟨name, hmem, hs⟩ := h
    rw [(Files.plainText_eq_iff (hname hmem)).2 hs]
    exact Or.inl hmem

theorem covers_of_mem_split {exclusion path : String} (h : exclusion ∈ Path.split path) :
    covers exclusion path = true :=
  covers_iff.2 (Or.inl h)

/-- A name has no slash, so only the normal form of an exclusion with a slash matters. -/
theorem covers_iff_of_slash {exclusion path : String} (h : '/' ∈ exclusion.toList) :
    covers exclusion path = true ↔
      Path.split (Path.normalize exclusion) <+: Path.split path := by
  have hname : exclusion ∉ Path.split path := fun hmem => Path.no_slash_of_mem_split hmem h
  rw [covers_iff]
  constructor
  · intro hcovers
    exact (hcovers.resolve_left hname).2
  · intro hprefix
    exact Or.inr ⟨h, hprefix⟩

theorem covers_append_slash {exclusion path : String} (h : covers exclusion path = true)
    (tail : String) : covers exclusion (path ++ "/" ++ tail) = true := by
  rw [covers_iff, Path.split_append_slash]
  rcases covers_iff.1 h with hname | ⟨hslash, hprefix⟩
  · exact Or.inl (List.mem_append_left _ hname)
  · exact Or.inr ⟨hslash, hprefix.trans (List.prefix_append _ _)⟩

/-- What covers the start of a way covers the way. -/
theorem not_covers_front {exclusion : String} {front back : List String} (hfront : front ≠ [])
    (h : covers exclusion (Path.unsplit (front ++ back)) = false) :
    covers exclusion (Path.unsplit front) = false := by
  by_cases hback : back = []
  · rwa [hback, List.append_nil] at h
  · rw [Path.unsplit_append hfront hback] at h
    by_contra hcovered
    rw [Bool.not_eq_false] at hcovered
    rw [covers_append_slash hcovered] at h
    exact Bool.noConfusion h

/-- Exclusions with a slash are told apart by their normal forms only. -/
theorem covers_congr {a b : String} (ha : '/' ∈ a.toList) (hb : '/' ∈ b.toList)
    (h : Path.normalize a = Path.normalize b) (path : String) : covers a path = covers b path := by
  rw [Bool.eq_iff_iff, covers_iff_of_slash ha, covers_iff_of_slash hb, h]

/-- The names that an exclusion looks for: those of its normal form if it has a slash, and else the
one name that it is. -/
def names (exclusion : String) : List String :=
  if '/' ∈ exclusion.toList then Path.split (Path.normalize exclusion) else [exclusion]

/-- What an exclusion looks for are whole names of the path, one after the other. -/
theorem names_infix_of_covers {exclusion path : String} (h : covers exclusion path = true) :
    names exclusion <:+: Path.split path := by
  unfold names
  split
  · exact ((covers_iff_of_slash ‹_›).1 h).isInfix
  · have hname := (covers_iff.1 h).resolve_right fun hslash => absurd hslash.1 ‹_›
    obtain ⟨front, back, hsplit⟩ := List.append_of_mem hname
    exact ⟨front, back, by rw [hsplit]; simp⟩

/-- Exclusions are matched name by name: one with a slash by the names of its normal form, from the
first name of the path on. So they cover all that is below what they cover, spellings of one normal
form cover the same paths, and no exclusion is found inside a name. -/
theorem covers_by_names (exclusion path : String) :
    (covers exclusion path = true ↔ exclusion ∈ Path.split path ∨
      '/' ∈ exclusion.toList ∧
        Path.split (Path.normalize exclusion) <+: Path.split path) ∧
    (covers exclusion path = true →
      ∀ tail, covers exclusion (path ++ "/" ++ tail) = true) ∧
    (∀ other, '/' ∈ exclusion.toList → '/' ∈ other.toList →
      Path.normalize exclusion = Path.normalize other →
      covers exclusion path = covers other path) ∧
    (covers exclusion path = true → names exclusion <:+: Path.split path) := by
  refine ⟨covers_iff, covers_append_slash, ?_, names_infix_of_covers⟩
  intro other hslash hother hnormal
  exact covers_congr hslash hother hnormal path

example : covers "wip" "tests/wip/cart.spec.ts" = true ∧
    covers "wip" "tests/wip-cart.spec.ts" = false ∧
    covers "./tests//wip/" "tests/wip/cart.spec.ts" = true ∧
    covers "tests/wip" "tests/wip-cart.spec.ts" = false := by decide

end SuiteLint.Exclusion
