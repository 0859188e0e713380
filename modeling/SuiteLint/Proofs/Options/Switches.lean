import SuiteLint.Options

/-!
# Switches on a command line

A command line that is read has the switches that its arguments name before any separator: a
document is asked for exactly if one of them is `--json`, and a number that none of them names is
left unset.
-/

namespace SuiteLint

/-- An argument names a switch, alone or with a value after an equals sign. -/
def Switch.NamedBy (s : Switch) (argument : String) : Prop :=
  ∃ name ∈ s.spellings, argument = name ∨ ∃ value, argument = name ++ "=" ++ value

theorem Switch.mem_spellings_of_ofSpelling? {s : Switch} {name : String}
    (h : ofSpelling? name = some s) : name ∈ s.spellings := by
  have hcontains := List.find?_some h
  exact List.contains_iff_mem.1 hcontains

namespace Argument

/-- What an argument that is told apart looks like. -/
inductive Told (s : String) : Argument → Prop where
  | word : Told s (.word s)
  | separator (h : s = "--") : Told s .separator
  | switch {found : Switch} (h : s ∈ found.spellings) : Told s (.switch found)
  | assigned {found : Switch} {name value : String} (hname : name ∈ found.spellings)
    (h : s = name ++ "=" ++ value) : Told s (.assigned found value)
  | cluster (found : Switch) (more : String) : Told s (.cluster found more)
  | unknown : Told s (.unknown s)

theorem splitEquals?_append {s name value : String} (h : splitEquals? s = some (name, value)) :
    s = name ++ "=" ++ value := by
  unfold splitEquals? at h
  split at h
  · exact absurd h nofun
  · rename_i c rest hdrop
    obtain ⟨rfl, rfl⟩ := Prod.mk.inj (Option.some.inj h)
    obtain rfl : c = '=' := by
      have hhead := List.head?_dropWhile_not (· != '=') s.toList
      rw [hdrop] at hhead
      simpa using hhead
    apply String.toList_inj.1
    calc s.toList = s.toList.takeWhile (· != '=') ++ s.toList.dropWhile (· != '=') :=
          List.takeWhile_append_dropWhile.symm
      _ = s.toList.takeWhile (· != '=') ++ '=' :: rest := by rw [hdrop]
      _ = _ := by simp

theorem told_of_assigned? {s : String} {argument : Argument} (h : assigned? s = some argument) :
    Told s argument := by
  simp only [assigned?, Option.bind_eq_bind, Option.bind_eq_some_iff, Option.pure_def,
    Option.some.injEq] at h
  obtain ⟨⟨name, value⟩, hsplit, found, hfound, heq⟩ := h
  split at heq
  · exact heq ▸ .cluster found value
  · exact heq ▸ .assigned (Switch.mem_spellings_of_ofSpelling? hfound) (splitEquals?_append hsplit)

theorem told_of_clustered? {s : String} {argument : Argument}
    (h : clustered? s = some argument) : Told s argument := by
  unfold clustered? at h
  split at h
  · obtain ⟨found, -, rfl⟩ := Option.map_eq_some_iff.1 h
    exact .cluster found _
  · exact absurd h nofun

theorem told_classify (s : String) : Told s (classify s) := by
  unfold classify
  split
  · split
    · exact .separator ‹_›
    · split
      · rename_i found hfound
        exact .switch (Switch.mem_spellings_of_ofSpelling? hfound)
      · split
        · rename_i argument hargument
          rcases Option.or_eq_some_iff.1 hargument with hassigned | ⟨-, hclustered⟩
          · exact told_of_assigned? hassigned
          · exact told_of_clustered? hclustered
        · split
          · exact .word
          · exact .unknown
  · exact .word

theorem classify_eq_separator {s : String} (h : classify s = .separator) : s = "--" := by
  have htold := told_classify s
  rw [h] at htold
  cases htold with
  | separator h => exact h

theorem mem_spellings_of_classify {s : String} {found : Switch}
    (h : classify s = .switch found) : s ∈ found.spellings := by
  have htold := told_classify s
  rw [h] at htold
  cases htold with
  | switch hname => exact hname

/-- An argument sets a switch. -/
def Sets (argument : Argument) (s : Switch) : Prop :=
  argument = .switch s ∨ ∃ value, argument = .assigned s value

theorem namedBy_of_sets {s : String} {found : Switch} (h : (classify s).Sets found) :
    found.NamedBy s := by
  rcases h with h | ⟨value, h⟩
  · exact ⟨s, mem_spellings_of_classify h, Or.inl rfl⟩
  · have htold := told_classify s
    rw [h] at htold
    cases htold with
    | assigned hname heq => exact ⟨_, hname, Or.inr ⟨value, heq⟩⟩

/-- Only what stands before the separator sets a switch: all that follows it are words. -/
theorem mem_classifyAll_of_sets {argv : List String} {argument : Argument} {found : Switch}
    (h : argument.Sets found) :
    argument ∈ classifyAll argv ↔ ∃ s ∈ argv.takeWhile (· ≠ "--"), classify s = argument := by
  induction argv with
  | nil => simp [classifyAll]
  | cons s rest ih =>
    unfold classifyAll
    by_cases hs : s = "--"
    · subst hs
      rw [show classify "--" = .separator by decide]
      rcases h with rfl | ⟨value, rfl⟩ <;> simp
    · rw [List.takeWhile_cons_of_pos (by simpa using hs)]
      split
      · exact absurd (classify_eq_separator ‹_›) hs
      · rw [List.mem_cons, ih]
        simp only [List.mem_cons, exists_eq_or_imp, @eq_comm _ argument]

end Argument

namespace Options

/-- The number that a switch sets. -/
def number? (o : Options) : Setting → Option (Given Int)
  | .exclude => none
  | .jobs => o.jobs
  | .failUnder => o.failUnder

/-- A switch with a value changes its own option only. -/
theorem Progress.assign_cases {p q : Progress} {s : Setting} {value : Given String}
    (h : p.assign s value = .ok q) :
    (s = .exclude ∧
      q = { p with options := { p.options with exclude := p.options.exclude ++ [value] } }) ∨
    (s = .jobs ∧ ∃ n, q = { p with options := { p.options with jobs := some n } }) ∨
    (s = .failUnder ∧ ∃ n, q = { p with options := { p.options with failUnder := some n } }) := by
  cases s with
  | exclude => exact Or.inl ⟨rfl, (Except.ok.inj h).symm⟩
  | jobs =>
    simp only [Progress.assign, Except.map] at h
    split at h
    · exact absurd h nofun
    · exact Or.inr (Or.inl ⟨rfl, _, (Except.ok.inj h).symm⟩)
  | failUnder =>
    simp only [Progress.assign, Except.map] at h
    split at h
    · exact absurd h nofun
    · exact Or.inr (Or.inr ⟨rfl, _, (Except.ok.inj h).symm⟩)

theorem Progress.json_assign {p q : Progress} {s : Setting} {value : Given String}
    (h : p.assign s value = .ok q) : q.options.json = p.options.json := by
  obtain ⟨rfl, rfl⟩ | ⟨rfl, n, rfl⟩ | ⟨rfl, n, rfl⟩ := assign_cases h <;> rfl

theorem Progress.json_flag {p q : Progress} {f : Flag} (h : p.flag f = .ok q) :
    q.options.json = true ↔ p.options.json = true ∨ f = .json := by
  cases f with
  | help | version => exact absurd h nofun
  | all | json | debug =>
    obtain rfl := Except.ok.inj h
    simp

theorem Progress.number?_assign {p q : Progress} {s s' : Setting} {value : Given String}
    (h : p.assign s value = .ok q) (hne : s ≠ s') :
    q.options.number? s' = p.options.number? s' := by
  obtain ⟨rfl, rfl⟩ | ⟨rfl, n, rfl⟩ | ⟨rfl, n, rfl⟩ := assign_cases h
  · cases s' <;> rfl
  · cases s' with
    | jobs => exact absurd rfl hne
    | exclude | failUnder => rfl
  · cases s' with
    | failUnder => exact absurd rfl hne
    | exclude | jobs => rfl

theorem Progress.number?_flag {p q : Progress} {f : Flag} {s : Setting} (h : p.flag f = .ok q) :
    q.options.number? s = p.options.number? s := by
  cases f with
  | help | version => exact absurd h nofun
  | all | json | debug =>
    obtain rfl := Except.ok.inj h
    cases s <;> rfl

theorem take_json {p q : Progress} {arguments : List Argument} (h : take p arguments = .ok q) :
    q.options.json = true ↔
      p.options.json = true ∨ Argument.switch (.flag .json) ∈ arguments := by
  fun_induction take p arguments with
  | case1 =>
    obtain rfl := Except.ok.inj h
    simp
  | case2 p text rest _ ih => simpa [Progress.leave] using ih h
  | case3 p text _ rest ih => simpa [Progress.takePath] using ih h
  | case4 p text _ rest _ ih => simpa [Progress.takePath] using ih h
  | case5 p rest ih =>
    have hjson : (if p.pathTaken = true then p.leave "--" else p).options = p.options := by
      split <;> rfl
    simpa [hjson] using ih h
  | case6 p text rest ih => simpa [Progress.leave] using ih h
  | case9 p s value rest p' hassign ih => simpa [Progress.json_assign hassign] using ih h
  | case11 p f rest p' hflag ih =>
    have hflags : .switch (.flag .json) ∈ .switch (.flag f) :: rest ↔
        f = .json ∨ .switch (.flag .json) ∈ rest := by
      simp [@eq_comm _ f]
    rw [ih h, Progress.json_flag hflag, hflags, or_assoc]
  | case13 p s value rest p' hassign ih => simpa [Progress.json_assign hassign] using ih h
  | case7 | case8 | case10 | case12 | case14 | case15 => exact absurd h nofun

/-- A number stays as it is unless an argument sets it. -/
theorem take_number? {p q : Progress} {arguments : List Argument} {s : Setting}
    (h : take p arguments = .ok q) (hnone : ∀ a ∈ arguments, ¬ a.Sets (.setting s)) :
    q.options.number? s = p.options.number? s := by
  fun_induction take p arguments with
  | case1 =>
    obtain rfl := Except.ok.inj h
    rfl
  | case2 p text rest _ ih => exact ih h fun a ha => hnone a (List.mem_cons_of_mem _ ha)
  | case3 p text _ rest ih =>
    rw [ih h fun a ha => hnone a (List.mem_cons_of_mem _ (List.mem_cons_of_mem _ ha))]
    cases s <;> rfl
  | case4 p text _ rest _ ih =>
    rw [ih h fun a ha => hnone a (List.mem_cons_of_mem _ ha)]
    cases s <;> rfl
  | case5 p rest ih =>
    rw [ih h fun a ha => hnone a (List.mem_cons_of_mem _ ha)]
    split <;> rfl
  | case6 p text rest ih => exact ih h fun a ha => hnone a (List.mem_cons_of_mem _ ha)
  | case9 p s' value rest p' hassign ih =>
    have hne : s' ≠ s := fun heq =>
      hnone _ List.mem_cons_self (Or.inr ⟨value, by rw [heq]⟩)
    rw [ih h fun a ha => hnone a (List.mem_cons_of_mem _ ha),
      Progress.number?_assign hassign hne]
  | case11 p f rest p' hflag ih =>
    rw [ih h fun a ha => hnone a (List.mem_cons_of_mem _ ha), Progress.number?_flag hflag]
  | case13 p s' value rest p' hassign ih =>
    have hne : s' ≠ s := fun heq => hnone _ List.mem_cons_self (Or.inl (by rw [heq]))
    rw [ih h fun a ha => hnone a (List.mem_cons_of_mem _ (List.mem_cons_of_mem _ ha)),
      Progress.number?_assign hassign hne]
  | case7 | case8 | case10 | case12 | case14 | case15 => exact absurd h nofun

theorem take_of_parse {argv : List String} {options : Options} (h : parse argv = .ok options) :
    ∃ p, take ⟨unset, false, []⟩ (Argument.classifyAll argv) = .ok p ∧ p.options = options := by
  unfold parse at h
  split at h
  · exact absurd h nofun
  · rename_i p htake
    split at h
    · exact ⟨p, htake, Except.ok.inj h⟩
    · exact absurd h nofun

/-- A document is asked for exactly if the switch for it stands before any separator. -/
theorem parse_json {argv : List String} {options : Options} (h : parse argv = .ok options) :
    options.json = true ↔ "--json" ∈ argv.takeWhile (· ≠ "--") := by
  obtain ⟨p, htake, rfl⟩ := take_of_parse h
  rw [take_json htake, Argument.mem_classifyAll_of_sets (Or.inl rfl)]
  constructor
  · rintro (hunset | ⟨s, hs, hclass⟩)
    · exact absurd hunset (by decide)
    · exact List.mem_singleton.1 (Argument.mem_spellings_of_classify hclass) ▸ hs
  · exact fun hmem => Or.inr ⟨"--json", hmem, by decide⟩

/-- A number that no argument before the separator names is left unset. -/
theorem parse_number? {argv : List String} {options : Options} {s : Setting}
    (h : parse argv = .ok options)
    (hnone : ∀ a ∈ argv.takeWhile (· ≠ "--"), ¬ (Switch.setting s).NamedBy a) :
    options.number? s = none := by
  obtain ⟨p, htake, rfl⟩ := take_of_parse h
  have hunset : unset.number? s = none := by cases s <;> rfl
  rw [take_number? htake, hunset]
  intro argument hargument hsets
  obtain ⟨a, ha, rfl⟩ := (Argument.mem_classifyAll_of_sets hsets).1 hargument
  exact hnone a ha (Argument.namedBy_of_sets hsets)

end Options

end SuiteLint
