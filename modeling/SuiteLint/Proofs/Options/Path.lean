import SuiteLint.Proofs.Options.Switches

/-!
# The path on a command line

The path to review is one of the arguments, or the current directory if none is left for it.
-/

namespace SuiteLint

theorem Argument.classify_word {s text : String} (h : classify s = .word text) : text = s := by
  have htold := told_classify s
  rw [h] at htold
  cases htold with
  | word => rfl

theorem Argument.mem_of_word_mem {text : String} {argv : List String}
    (h : Argument.word text ∈ classifyAll argv) : text ∈ argv := by
  induction argv with
  | nil => exact absurd h List.not_mem_nil
  | cons s rest ih =>
    unfold classifyAll at h
    split at h
    · rcases List.mem_cons.1 h with h | h
      · exact absurd h nofun
      · obtain ⟨s', hs', heq⟩ := List.mem_map.1 h
        exact List.mem_cons_of_mem s (Argument.word.inj heq ▸ hs')
    · rcases List.mem_cons.1 h with h | h
      · exact classify_word h.symm ▸ List.mem_cons_self
      · exact List.mem_cons_of_mem s (ih h)

namespace Options

theorem Progress.path_assign {p q : Progress} {s : Setting} {value : Given String}
    (h : p.assign s value = .ok q) : q.options.path = p.options.path := by
  obtain ⟨rfl, rfl⟩ | ⟨rfl, n, rfl⟩ | ⟨rfl, n, rfl⟩ := assign_cases h <;> rfl

theorem Progress.path_flag {p q : Progress} {f : Flag} (h : p.flag f = .ok q) :
    q.options.path = p.options.path := by
  cases f with
  | help | version => exact absurd h nofun
  | all | json | debug =>
    obtain rfl := Except.ok.inj h
    rfl

/-- Arguments leave the path as it is or take it from a word. -/
theorem take_path {p q : Progress} {arguments : List Argument} (h : take p arguments = .ok q) :
    q.options.path = p.options.path ∨ Argument.word q.options.path ∈ arguments := by
  fun_induction take p arguments with
  | case1 =>
    obtain rfl := Except.ok.inj h
    exact Or.inl rfl
  | case2 p text rest _ ih => exact (ih h).imp_right (List.mem_cons_of_mem _)
  -- The path is the word that is taken, unless a later one replaces it.
  | case3 p text _ rest ih =>
    refine Or.inr ?_
    rcases ih h with hpath | hword
    · rw [hpath]
      exact List.mem_cons_self
    · exact List.mem_cons_of_mem _ (List.mem_cons_of_mem _ hword)
  | case4 p text _ rest _ ih =>
    refine Or.inr ?_
    rcases ih h with hpath | hword
    · rw [hpath]
      exact List.mem_cons_self
    · exact List.mem_cons_of_mem _ hword
  | case5 p rest ih =>
    refine (ih h).imp (fun hpath => ?_) (List.mem_cons_of_mem _)
    rw [hpath]
    split <;> rfl
  | case6 p text rest ih => exact (ih h).imp_right (List.mem_cons_of_mem _)
  | case9 p s value rest p' hassign ih =>
    rw [← Progress.path_assign hassign]
    exact (ih h).imp_right (List.mem_cons_of_mem _)
  | case11 p f rest p' hflag ih =>
    rw [← Progress.path_flag hflag]
    exact (ih h).imp_right (List.mem_cons_of_mem _)
  | case13 p s value rest p' hassign ih =>
    rw [← Progress.path_assign hassign]
    exact (ih h).imp_right fun hword => List.mem_cons_of_mem _ (List.mem_cons_of_mem _ hword)
  | case7 | case8 | case10 | case12 | case14 | case15 => cases h

/-- The path of a command line is one of its arguments, or the current directory. -/
theorem parse_path {argv : List String} {options : Options} (h : parse argv = .ok options) :
    options.path = "." ∨ options.path ∈ argv := by
  obtain ⟨p, htake, rfl⟩ := take_of_parse h
  exact (take_path htake).imp_right Argument.mem_of_word_mem

end Options

end SuiteLint
