import SuiteLint.Proofs.Text.Margins
import SuiteLint.Rule.Structure

/-!
# The checks on whole files, line by line

The checks on whole files read the text as one piece, but none of their patterns holds a line end
or needs to see beyond one. So they are answered line by line, and neither a line end put between
two texts nor the margins of the lines change what they find.
-/

namespace SuiteLint.Rule

open Text

theorem lineBound_assertsAt : LineBound assertsAt :=
  (lineBound_startsWith (by decide)).or (lineBound_startsWith (by decide))

theorem lineBound_testDeclaration : LineBound testDeclaration.startsAt :=
  Needle.lineBound (by decide)

theorem lineBound_sharedSetUp : LineBound sharedSetUp.startsAt :=
  Needle.lineBound (by decide)

theorem lineBound_sharedSettings : LineBound (Needle.plain sharedSettings).startsAt :=
  Needle.lineBound (by decide)

theorem hasAssertion_append_newline (a b : List Char) :
    hasAssertion (a ++ '\n' :: b) = (hasAssertion a || hasAssertion b) :=
  anyCut_append_newline lineBound_assertsAt a b

theorem testsAreIndependent_append_newline (a b : List Char) :
    testsAreIndependent (a ++ '\n' :: b) = true ↔
      1 < testDeclaration.countIn a + testDeclaration.countIn b ∧
      (sharedSetUp.countIn a = 0 ∧ sharedSetUp.countIn b = 0) ∧
      contains sharedSettings a = false ∧ contains sharedSettings b = false := by
  have htests : testDeclaration.countIn (a ++ '\n' :: b) =
      testDeclaration.countIn a + testDeclaration.countIn b :=
    countCuts_append_newline lineBound_testDeclaration a b
  have hsetUp : sharedSetUp.countIn (a ++ '\n' :: b) =
      sharedSetUp.countIn a + sharedSetUp.countIn b :=
    countCuts_append_newline lineBound_sharedSetUp a b
  have hsettings : contains sharedSettings (a ++ '\n' :: b) =
      (contains sharedSettings a || contains sharedSettings b) :=
    anyCut_append_newline lineBound_sharedSettings a b
  rw [testsAreIndependent, htests, hsetUp, hsettings]
  simp [and_assoc]

/-- What the checks on whole files ask. -/
def fileQuestions : List (Cut → Bool) :=
  [assertsAt, testDeclaration.startsAt, sharedSetUp.startsAt,
    (Needle.plain sharedSettings).startsAt]

theorem lineBound_fileQuestions : ∀ q ∈ fileQuestions, LineBound q := by
  simp only [fileQuestions, List.forall_mem_cons, List.not_mem_nil, false_implies, implies_true,
    and_true]
  exact ⟨lineBound_assertsAt, lineBound_testDeclaration, lineBound_sharedSetUp,
    lineBound_sharedSettings⟩

theorem marginBlind_fileQuestions : ∀ q ∈ fileQuestions, MarginBlind false q := by
  simp only [fileQuestions, List.forall_mem_cons, List.not_mem_nil, false_implies, implies_true,
    and_true]
  exact ⟨(marginBlind_startsWith _ (by decide)).or (marginBlind_startsWith _ (by decide)),
    Needle.marginBlind (by decide), Needle.marginBlind (by decide), Needle.marginBlind (by decide)⟩

section Congr

variable {s t : List Char} (h : ∀ q ∈ fileQuestions, answers (ask q) s = answers (ask q) t)

include h

theorem fileIssues_congr (path : String) : fileIssues path s = fileIssues path t := by
  have hassert : hasAssertion s = hasAssertion t := by
    rw [hasAssertion, hasAssertion, anyCut_eq_answers, anyCut_eq_answers,
      h assertsAt (by simp [fileQuestions])]
  rw [fileIssues, fileIssues, hassert]

theorem filePositives_congr : filePositives s = filePositives t := by
  have htests : testDeclaration.countIn s = testDeclaration.countIn t := by
    rw [Needle.countIn, Needle.countIn, countCuts_eq_answers, countCuts_eq_answers,
      h testDeclaration.startsAt (by simp [fileQuestions])]
  have hsetUp : sharedSetUp.countIn s = sharedSetUp.countIn t := by
    rw [Needle.countIn, Needle.countIn, countCuts_eq_answers, countCuts_eq_answers,
      h sharedSetUp.startsAt (by simp [fileQuestions])]
  have hsettings : contains sharedSettings s = contains sharedSettings t := by
    rw [contains, contains, Needle.occursIn, Needle.occursIn, anyCut_eq_answers, anyCut_eq_answers,
      h (Needle.plain sharedSettings).startsAt (by simp [fileQuestions])]
  rw [filePositives, filePositives, testsAreIndependent, testsAreIndependent, htests, hsetUp,
    hsettings]

end Congr

end SuiteLint.Rule
