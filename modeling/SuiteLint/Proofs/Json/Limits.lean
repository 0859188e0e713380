import SuiteLint.Proofs.Json.Outline

/-!
# Where a reader meets its limits

A reader that stops for one of its limits has come upon what passes it: outside the strings of the
text there is an integer with too many digits, or more containers are open at once than may lie
inside each other. Texts that keep within the limits are either read or malformed.
-/

namespace SuiteLint.Json

/-! ## Stops -/

/-- What the outline of a text has when a reader stops in it, with room for the given number of
containers inside each other. -/
def Stop.FoundIn (room : Nat) (outlined : List Char) : Stop → Prop
  | .malformed _ _ => True
  | .digitLimit _ => ∃ before rest, outlined = before ++ rest ∧ StartsValue before ∧
    LongInteger rest
  | .tooDeep _ => ∀ level, level + room < depth level outlined

/-- A reader keeps to its text: it passes over some of it and leaves containers, or stops for
something that is there. -/
def Within {α : Type} (left room : Nat) (s : List Char) : Read α → Prop
  | .ok (_, rest) => Leaves left s rest
  | .error stop => stop.FoundIn room (outline .outside s)

section

variable {room left left' : Nat} {s t : List Char} {stop : Stop}

theorem Stop.FoundIn.of_reaches (h : stop.FoundIn room (outline .outside t)) (hs : Reaches s t) :
    stop.FoundIn room (outline .outside s) := by
  cases stop with
  | malformed => trivial
  | digitLimit digits =>
    obtain ⟨before, rest, hrest, hbefore, hlong⟩ := h
    obtain ⟨front, hfront, hstarts⟩ := hs.starts
    refine ⟨front ++ before, rest, ?_, hstarts.append hbefore, hlong⟩
    rw [hfront, hrest, List.append_assoc]
  | tooDeep c => exact fun level => Nat.lt_of_lt_of_le (h level) (hs.leaves.depth level)

/-- What lies too deep inside a container lies deeper outside. -/
theorem Stop.FoundIn.inside {c : Char} (hc : opens c = true)
    (h : stop.FoundIn room (outline .outside s)) :
    stop.FoundIn (room + 1) (outline .outside (c :: s)) := by
  have hquote : c ≠ '"' := by
    rintro rfl
    exact absurd hc (by decide)
  rw [outline_cons_of_ne hquote]
  cases stop with
  | malformed => trivial
  | digitLimit digits =>
    obtain ⟨before, rest, hrest, hbefore, hlong⟩ := h
    have hopening : StartsValue [c] := startsValue_concat (by simp [isStarter, hc]) []
    exact ⟨[c] ++ before, rest, by rw [hrest]; rfl, hopening.append hbefore, hlong⟩
  | tooDeep c' =>
    intro level
    have hdeep := h (level + 1)
    rw [depth_cons_of_opens hc]
    omega

theorem tooDeep_foundIn {c : Char} (hc : opens c = true) (container : Container) :
    (Stop.tooDeep container).FoundIn 0 (outline .outside (c :: s)) := by
  intro level
  rw [outline, depth_cons_of_opens hc]
  exact le_depth (level + 1) _

theorem Within.of_reaches {α : Type} {r : Read α} (h : Within left room t r) (hs : Reaches s t) :
    Within left room s r := by
  cases r with
  | error stop => exact Stop.FoundIn.of_reaches h hs
  | ok read => exact Nat.zero_add left ▸ hs.leaves.trans h

theorem Within.map {α β : Type} {r : Read α} (h : Within left room s r) (f : α → β) :
    Within left room s (r.map fun read => (f read.1, read.2)) := by
  cases r with
  | error stop => exact h
  | ok read => exact h

end

/-! ## Strings -/

theorem outline_inside_of_hexValue? {c : Char} {n : Nat} (h : Text.hexValue? c = some n)
    (s : List Char) : outline .inside (c :: s) = outline .inside s := by
  have hne : ∀ d, Text.hexValue? d = none → c ≠ d := by
    rintro d hd rfl
    exact absurd (hd.symm.trans h) nofun
  rw [outline, if_neg (hne '"' (by decide)), if_neg (hne '\\' (by decide))]

theorem outline_inside_of_hexQuad? {a b c d : Char} {n : Nat} (h : hexQuad? a b c d = some n)
    (s : List Char) : outline .inside (a :: b :: c :: d :: s) = outline .inside s := by
  simp only [hexQuad?, Option.bind_eq_bind, Option.bind_eq_some_iff] at h
  obtain ⟨na, ha, nb, hb, nc, hc, nd, hd, -⟩ := h
  rw [outline_inside_of_hexValue? ha, outline_inside_of_hexValue? hb,
    outline_inside_of_hexValue? hc, outline_inside_of_hexValue? hd]

/-- A reader inside a string stays inside, or leaves it by its closing quote. -/
def StaysInside (s : List Char) : Read (Option Symbol) → Prop
  | .ok (some _, rest) => outline .inside s = outline .inside rest
  | .ok (none, rest) => outline .inside s = '"' :: outline .outside rest
  | .error stop => ∃ complaint rest, stop = .malformed complaint rest

theorem StaysInside.of_eq {s t : List Char} {r : Read (Option Symbol)} (h : StaysInside t r)
    (hs : outline .inside s = outline .inside t) : StaysInside s r := by
  match r, h with
  | .ok (some _, _), h => exact hs.trans h
  | .ok (none, _), h => exact hs.trans h
  | .error _, h => exact h

theorem outline_of_lowHalf? {s rest : List Char} {n : Nat} (h : lowHalf? s = some (n, rest)) :
    outline .inside s = outline .inside rest := by
  unfold lowHalf? at h
  split at h
  · rename_i a b c d e left
    split at h
    · rename_i hquad
      split at h
      · obtain ⟨-, rfl⟩ := Prod.mk.inj (Option.some.inj h)
        exact outline_inside_of_hexQuad? hquad (e :: left)
      · exact absurd h nofun
    · exact absurd h nofun
  · exact absurd h nofun

theorem staysInside_unicodeEscape (rest : List Char) :
    StaysInside rest ((unicodeEscape rest).map fun read => (some read.1, read.2)) := by
  unfold unicodeEscape
  split
  · rename_i a b c d e left
    split
    · exact ⟨_, _, rfl⟩
    · rename_i hquad
      have hleft := outline_inside_of_hexQuad? hquad (e :: left)
      split
      · split
        · rename_i hlow
          exact hleft.trans (outline_of_lowHalf? hlow)
        · exact hleft
      · exact hleft
  · exact ⟨_, _, rfl⟩

theorem staysInside_stringUnit (opening s : List Char) :
    StaysInside s (stringUnit opening s) := by
  unfold stringUnit
  split
  · exact ⟨_, _, rfl⟩
  · rename_i c rest
    split
    · rename_i hquote
      show outline .inside (c :: rest) = _
      rw [outline, if_pos hquote, hquote]
    · rename_i hquote
      split
      · rename_i hslash
        split
        · exact ⟨_, _, rfl⟩
        · rename_i e left
          have hescaped : outline .inside (c :: e :: left) = outline .inside left := by
            rw [outline, if_neg hquote, if_pos hslash, outline]
          split
          · exact (staysInside_unicodeEscape left).of_eq hescaped
          · split
            · exact hescaped
            · exact ⟨_, _, rfl⟩
      · rename_i hslash
        split
        · exact ⟨_, _, rfl⟩
        · show outline .inside (c :: rest) = outline .inside rest
          rw [outline, if_neg hquote, if_neg hslash]

/-- A string is left behind its closing quote or malformed. -/
theorem string_cases (bound : Nat) (s : List Char) :
    (∃ t rest, string bound s = .ok (t, rest) ∧
      outline .inside s = '"' :: outline .outside rest) ∨
    ∃ complaint rest, string bound s = .error (.malformed complaint rest) := by
  suffices h : ∀ opening read, (∃ t rest, stringBody opening bound read s = .ok (t, rest) ∧
        outline .inside s = '"' :: outline .outside rest) ∨
      ∃ complaint rest, stringBody opening bound read s = .error (.malformed complaint rest) from
    h ('"' :: s) []
  intro opening
  -- What was read before does not matter, so the induction runs over every such text.
  induction bound generalizing s with
  | zero => exact fun read => Or.inr ⟨_, _, rfl⟩
  | succ bound ih =>
    intro read
    have hunit := staysInside_stringUnit opening s
    rw [stringBody]
    split
    · rename_i stop hstop
      rw [hstop] at hunit
      obtain ⟨complaint, rest, rfl⟩ := hunit
      exact Or.inr ⟨complaint, rest, rfl⟩
    · rename_i rest hread
      rw [hread] at hunit
      exact Or.inl ⟨_, rest, rfl, hunit⟩
    · rename_i symbol rest hread
      rw [hread] at hunit
      have hs : outline .inside s = outline .inside rest := hunit
      rw [hs]
      exact ih rest (symbol :: read)

theorem within_string (room bound : Nat) (s : List Char) :
    Within 0 room ('"' :: s) (string bound s) := by
  rcases string_cases bound s with ⟨t, rest, hread, houtline⟩ | ⟨complaint, rest, hstop⟩
  · rw [hread]
    have hopening : outline .outside ('"' :: s) = '"' :: '"' :: outline .outside rest := by
      rw [← houtline]
      rfl
    refine ⟨hopening ▸ List.suffix_append ['"', '"'] _, fun level => ?_⟩
    rw [hopening]
    exact Nat.le_refl _
  · rw [hstop]
    trivial

/-! ## Numbers and names -/

theorem takeWhile_dropWhile_digits (s : List Char) :
    (s.dropWhile Char.isDigit).takeWhile Char.isDigit = [] := by
  have hhead := List.head?_dropWhile_not Char.isDigit s
  cases hdrop : s.dropWhile Char.isDigit with
  | nil => rfl
  | cons c rest =>
    rw [hdrop] at hhead
    exact List.takeWhile_cons_of_neg (by simpa using hhead)

/-- The whole part of a number is a lone zero, or all the digits that stand there. -/
theorem wholeDigits?_cases {s whole rest : List Char} (h : wholeDigits? s = some (whole, rest)) :
    s = whole ++ rest ∧ (∀ c ∈ whole, c.isDigit = true) ∧
      (whole = ['0'] ∨ whole.head? ≠ some '0' ∧ rest.takeWhile Char.isDigit = []) := by
  unfold wholeDigits? at h
  split at h
  · exact absurd h nofun
  · rename_i c left
    split at h
    · rename_i hzero
      obtain ⟨rfl, rfl⟩ := Prod.mk.inj (Option.some.inj h)
      exact ⟨by rw [hzero]; rfl, fun d hd => List.mem_singleton.1 hd ▸ rfl, Or.inl rfl⟩
    · rename_i hzero
      split at h
      · rename_i hc
        obtain ⟨rfl, rfl⟩ := Prod.mk.inj (Option.some.inj h)
        refine ⟨List.takeWhile_append_dropWhile.symm, fun d hd => List.mem_takeWhile_imp hd,
          Or.inr ⟨?_, ?_⟩⟩
        · rw [List.takeWhile_cons_of_pos hc]
          simpa using hzero
        · exact takeWhile_dropWhile_digits _
      · exact absurd h nofun

theorem skips_fractionDigits (s : List Char) : Skips s (fractionDigits s).2 := by
  unfold fractionDigits
  split
  · rename_i rest
    split
    · exact Skips.refl _
    · exact (skips_cons (by decide) rest).trans (skips_digits rest)
  · exact Skips.refl _

theorem skips_exponentSign (s : List Char) : Skips s (exponentSign s).2 := by
  unfold exponentSign
  split
  · exact skips_cons (by decide) _
  · exact skips_cons (by decide) _
  · exact Skips.refl _

theorem skips_exponentPart? {s rest : List Char} {e : Int} (h : exponentPart? s = some (e, rest)) :
    Skips s rest := by
  unfold exponentPart? at h
  split at h
  · exact absurd h nofun
  · rename_i mark left
    split at h
    · rename_i hmark
      have hplain : isPlain mark = true := by rcases hmark with rfl | rfl <;> decide
      simp only at h
      split at h
      · exact absurd h nofun
      · obtain ⟨-, rfl⟩ := Prod.mk.inj (Option.some.inj h)
        exact (skips_cons hplain left).trans ((skips_exponentSign left).trans (skips_digits _))
    · exact absurd h nofun

theorem fractionDigits_of_fst_eq_nil {s : List Char} (h : (fractionDigits s).1 = []) :
    (fractionDigits s).2 = s := by
  unfold fractionDigits
  split
  · rename_i rest
    rw [fractionDigits_point] at h
    rw [if_pos (List.isEmpty_iff.2 h)]
  · rfl

/-- A number is passed over or malformed, or it is an integer with too many digits. -/
theorem unsignedNumber_cases (start : List Char) (negative : Bool) (s : List Char) :
    (∃ v rest, unsignedNumber start negative s = .ok (v, rest) ∧ Skips s rest) ∨
    (∃ complaint rest, unsignedNumber start negative s = .error (.malformed complaint rest)) ∨
    ∃ digits, unsignedNumber start negative s = .error (.digitLimit digits) ∧ LongDigits s := by
  unfold unsignedNumber
  split
  · exact Or.inr (Or.inl ⟨_, _, rfl⟩)
  · rename_i whole rest hwhole
    obtain ⟨rfl, hdigits, hcases⟩ := wholeDigits?_cases hwhole
    have hrest : Skips (whole ++ rest) (fractionDigits rest).2 :=
      Skips.trans ⟨whole, fun c hc => isPlain_of_isDigit (hdigits c hc), rfl⟩
        (skips_fractionDigits rest)
    simp only
    split
    · rename_i exponent left hexponent
      exact Or.inl ⟨_, left, rfl, hrest.trans (skips_exponentPart? hexponent)⟩
    · rename_i hexponent
      split
      · rename_i hempty
        have hfraction : (fractionDigits rest).1 = [] := List.isEmpty_iff.1 hempty
        split
        · rename_i hlimit
          refine Or.inr (Or.inr ⟨_, rfl, whole, rest, rfl, hdigits, ?_⟩)
          rcases hcases with rfl | ⟨hzero, hmaximal⟩
          · exact absurd hlimit (by decide)
          · rw [fractionDigits_of_fst_eq_nil hfraction] at hexponent
            exact ⟨hzero, hlimit, hmaximal, hfraction, hexponent⟩
        · exact Or.inl ⟨_, _, rfl, hrest⟩
      · exact Or.inl ⟨_, _, rfl, hrest⟩

theorem within_number (room : Nat) (s : List Char) : Within 0 room s (number s) := by
  unfold number
  split
  · rename_i rest
    have hminus : outline .outside ('-' :: rest) = '-' :: outline .outside rest :=
      outline_cons_of_ne (by decide)
    obtain ⟨v, left, hread, hskips⟩ | ⟨complaint, left, hstop⟩ | ⟨digits, hstop, hlong⟩ :=
      unsignedNumber_cases ('-' :: rest) true rest
    · rw [hread]
      exact ((skips_cons (by decide) rest).trans hskips).leaves
    · rw [hstop]
      trivial
    · rw [hstop]
      exact ⟨[], _, rfl, nofun, Or.inr ⟨_, hminus, hlong.outline⟩⟩
  · obtain ⟨v, left, hread, hskips⟩ | ⟨complaint, left, hstop⟩ | ⟨digits, hstop, hlong⟩ :=
      unsignedNumber_cases s false s
    · rw [hread]
      exact hskips.leaves
    · rw [hstop]
      trivial
    · rw [hstop]
      exact ⟨[], _, rfl, nofun, Or.inl hlong.outline⟩

theorem within_scalar (room bound : Nat) (s : List Char) : Within 0 room s (scalar bound s) := by
  unfold scalar
  split
  · rename_i rest
    exact (within_string room bound rest).map Value.text
  · split
    · rename_i name v hname
      have hplain : (names.all fun n => n.1.toList.all isPlain) = true := by decide
      have hprefix : name.toList.isPrefixOf s = true := by simpa using List.find?_some hname
      obtain ⟨rest, rfl⟩ := List.isPrefixOf_iff_prefix.1 hprefix
      show Leaves 0 _ (List.drop _ _)
      rw [List.drop_left]
      have hmem := List.mem_of_find?_eq_some hname
      exact Skips.leaves ⟨_, List.all_eq_true.1 (List.all_eq_true.1 hplain _ hmem), rfl⟩
    · exact within_number room s

/-! ## Values -/

/-- The readers of values, items and members keep to their texts when they are given fewer steps
than the bound. -/
structure AllWithin (bound : Nat) : Prop where
  value : ∀ room s, Within 0 room s (Json.value bound room s)
  items : ∀ room s, Within 1 room s (Json.items bound room s)
  members : ∀ room s, Within 1 room s (Json.members bound room s)

theorem AllWithin.value_succ {bound : Nat} (h : AllWithin bound) (room : Nat) (s : List Char) :
    Within 0 room s (Json.value (bound + 1) room s) := by
  rw [Json.value.eq_def]
  simp only
  split
  · exact tooDeep_foundIn rfl .array
  · rename_i rest room
    split
    · rename_i left hclosed
      exact leaves_open rfl (leaves_of_closed hclosed rfl)
    · have hitems := (h.items room (skipLayout rest)).of_reaches (reaches_skipLayout rest)
      split
      · rename_i vs left hread
        rw [hread] at hitems
        exact leaves_open rfl hitems
      · rename_i stop hstop
        rw [hstop] at hitems
        exact Stop.FoundIn.inside rfl hitems
  · exact tooDeep_foundIn rfl .object
  · rename_i rest room
    split
    · rename_i left hclosed
      exact leaves_open rfl (leaves_of_closed hclosed rfl)
    · have hmembers := (h.members room (skipLayout rest)).of_reaches (reaches_skipLayout rest)
      split
      · rename_i ms left hread
        rw [hread] at hmembers
        exact leaves_open rfl hmembers
      · rename_i stop hstop
        rw [hstop] at hmembers
        exact Stop.FoundIn.inside rfl hmembers
  · exact within_scalar _ bound s

theorem AllWithin.items_succ {bound : Nat} (h : AllWithin bound) (room : Nat) (s : List Char) :
    Within 1 room s (Json.items (bound + 1) room s) := by
  have hvalue := h.value room s
  rw [Json.items]
  split
  · rename_i stop hstop
    rwa [hstop] at hvalue
  · rename_i v rest hread
    rw [hread] at hvalue
    have hrest : Leaves 0 s rest := hvalue
    split
    · rename_i left hclosed
      exact hrest.trans (leaves_of_closed hclosed rfl)
    · rename_i left hcomma
      have hleft : Reaches s (skipLayout left) := hrest.reaches hcomma (by decide) (by decide)
      have hitems := (h.items room (skipLayout left)).of_reaches hleft
      split
      · rename_i vs left' hmore
        rwa [hmore] at hitems
      · rename_i stop hstop
        rwa [hstop] at hitems
    · trivial

theorem AllWithin.members_succ {bound : Nat} (h : AllWithin bound) (room : Nat) (s : List Char) :
    Within 1 room s (Json.members (bound + 1) room s) := by
  rw [Json.members.eq_def]
  simp only
  split
  · rename_i rest
    have hkey := within_string room bound rest
    split
    · rename_i stop hstop
      rwa [hstop] at hkey
    · rename_i key left hread
      rw [hread] at hkey
      have hleft : Leaves 0 ('"' :: rest) left := hkey
      split
      · rename_i colon hcolon
        have hplace : Reaches ('"' :: rest) (skipLayout colon) :=
          hleft.reaches hcolon (by decide) (by decide)
        have hvalue := (h.value room (skipLayout colon)).of_reaches hplace
        split
        · rename_i stop hstop
          rwa [hstop] at hvalue
        · rename_i v after hread'
          rw [hread'] at hvalue
          have hafter : Leaves 0 ('"' :: rest) after := hvalue
          split
          · rename_i closed hclosed
            exact hafter.trans (leaves_of_closed hclosed rfl)
          · rename_i comma hcomma
            have hmore : Reaches ('"' :: rest) (skipLayout comma) :=
              hafter.reaches hcomma (by decide) (by decide)
            have hmembers := (h.members room (skipLayout comma)).of_reaches hmore
            split
            · rename_i ms left' hread''
              rwa [hread''] at hmembers
            · rename_i stop hstop
              rwa [hstop] at hmembers
          · trivial
      · trivial
  · trivial

theorem allWithin (bound : Nat) : AllWithin bound := by
  induction bound with
  | zero => exact ⟨fun _ _ => trivial, fun _ _ => trivial, fun _ _ => trivial⟩
  | succ bound ih => exact ⟨ih.value_succ, ih.items_succ, ih.members_succ⟩

/-! ## Documents -/

/-- A text within the limits: outside its strings no integer has too many digits, and no more
containers are open at once than there is always room for. -/
structure KeepsLimits (s : List Char) : Prop where
  integers : ∀ before rest, outline .outside s = before ++ rest → StartsValue before →
    ¬ LongInteger rest
  nesting : depth 0 (outline .outside s) ≤ leastContainers

/-- A short text has no integer with too many digits. -/
theorem keepsLimits_of_length_le {s : List Char}
    (hlength : (outline .outside s).length ≤ Text.maxDigits)
    (hnesting : depth 0 (outline .outside s) ≤ leastContainers) : KeepsLimits s := by
  refine ⟨fun before rest hrest _ hlong => ?_, hnesting⟩
  have hrest' := hlong.length_lt
  rw [hrest, List.length_append] at hlength
  omega

theorem foundIn_of_document [Room] {s : List Char} {stop : Stop} (h : document s = .error stop) :
    stop.FoundIn Room.containers (outline .outside s) := by
  have hvalue := ((allWithin (2 * s.length + 2)).value Room.containers (skipLayout s)).of_reaches
    (reaches_skipLayout s)
  unfold document at h
  split at h
  · obtain rfl := Except.error.inj h
    trivial
  · split at h
    · rename_i hstop
      obtain rfl := Except.error.inj h
      rwa [hstop] at hvalue
    · split at h
      · exact absurd h nofun
      · obtain rfl := Except.error.inj h
        trivial

/-- A text within the limits is read or malformed. -/
theorem KeepsLimits.parse [StartRoom] {s : List Char} (h : KeepsLimits s) :
    (∃ v, parse s = .ok v) ∨ ∃ complaint before, parse s = .error (.at complaint before) := by
  unfold Json.parse
  cases hdocument : document s with
  | ok v => exact Or.inl ⟨v, rfl⟩
  | error stop =>
    have hfound := foundIn_of_document hdocument
    cases stop with
    | malformed complaint rest => exact Or.inr ⟨complaint, _, rfl⟩
    | digitLimit digits =>
      obtain ⟨before, rest, hrest, hbefore, hlong⟩ := hfound
      exact absurd hlong (h.integers before rest hrest hbefore)
    | tooDeep c =>
      have hdeep : 0 + Room.containers < depth 0 (outline .outside s) := hfound 0
      have hle := h.nesting.trans StartRoom.leastContainers_le
      omega

end SuiteLint.Json
