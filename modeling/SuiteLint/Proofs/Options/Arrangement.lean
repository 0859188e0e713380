import Mathlib.Data.List.Induction
import Mathlib.Data.List.Perm.Basic
import SuiteLint.Proofs.Options.Switches
import SuiteLint.Proofs.Text.Numeral
import SuiteLint.Run

/-!
# Command lines that are written for a request

A request is written as one argument for each thing that it asks for, with the value after an equals
sign, and with the path after the separator. In whatever order the arguments stand, the command line
is read back as the request, whatever the texts look like: empty, with equals signs or like switches.
A request then goes before the settings of the project, also where it asks for zero or less.

Two texts cannot be written in this way: an exclusion that is the separator itself, which leaves a
blank, and a number with too many digits, which is refused.
-/

namespace SuiteLint

/-- What may be asked for besides a path. -/
structure Request where
  exclude : List String
  jobs : Option Int
  failUnder : Option Int
  all : Bool
  json : Bool
  debug : Bool

namespace Request

/-- One argument of a request. -/
inductive Part where
  | exclude (text : String)
  | jobs (n : Int)
  | failUnder (n : Int)
  | all
  | json
  | debug
deriving DecidableEq

namespace Part

/-- How a part is written. -/
def text : Part → String
  | .exclude text => "--exclude=" ++ text
  | .jobs n => "--jobs=" ++ toString n
  | .failUnder n => "--fail-under=" ++ toString n
  | .all => "--all"
  | .json => "--json"
  | .debug => "--debug"

def exclusion? : Part → Option String
  | .exclude text => some text
  | _ => none

def jobs? : Part → Option Int
  | .jobs n => some n
  | _ => none

def failUnder? : Part → Option Int
  | .failUnder n => some n
  | _ => none

/-- A part whose text is read back: its exclusion is not the separator, its number not too long. -/
def Writable : Part → Prop
  | .exclude text => text ≠ "--"
  | .jobs n => (Nat.toDigits 10 n.natAbs).length ≤ Text.maxDigits
  | .failUnder n => (Nat.toDigits 10 n.natAbs).length ≤ Text.maxDigits
  | _ => True

end Part

/-- The parts of a request that have no value. -/
def flags (r : Request) : List Part :=
  (if r.all then [.all] else []) ++ (if r.json then [.json] else []) ++
    if r.debug then [.debug] else []

/-- The parts of a request, exclusions first. -/
def parts (r : Request) : List Part :=
  r.exclude.map .exclude ++ r.jobs.toList.map .jobs ++ r.failUnder.toList.map .failUnder ++ r.flags

/-- Parts that are those of a request in any order, except that exclusions keep theirs. -/
structure Arranges (r : Request) (parts : List Part) : Prop where
  perm : parts.Perm r.parts
  order : (r.exclude.map Part.exclude).Sublist parts

/-- The command line with the given parts and path. -/
def argv (parts : List Part) (path : String) : List String :=
  parts.map Part.text ++ ["--", path]

/-- A request that can be written: no exclusion is the separator, no number too long. -/
structure Writable (r : Request) : Prop where
  exclude : ∀ text ∈ r.exclude, text ≠ "--"
  jobs : ∀ n ∈ r.jobs, (Nat.toDigits 10 n.natAbs).length ≤ 4300
  failUnder : ∀ n ∈ r.failUnder, (Nat.toDigits 10 n.natAbs).length ≤ 4300

/-- The options that a request for a path comes to. -/
def options (r : Request) (path : String) : Options :=
  ⟨path, r.all, r.json, r.exclude.map .value, r.jobs.map .value, r.failUnder.map .value, r.debug⟩

/-- The request that parts make up. -/
def ofParts (parts : List Part) : Request where
  exclude := parts.filterMap Part.exclusion?
  jobs := (parts.filterMap Part.jobs?).getLast?
  failUnder := (parts.filterMap Part.failUnder?).getLast?
  all := parts.contains .all
  json := parts.contains .json
  debug := parts.contains .debug

end Request

/-! ## Arguments with a value -/

namespace Argument

theorem ofSpelling?_of_mem {found : Switch} {name : String} (h : name ∈ found.spellings) :
    Switch.ofSpelling? name = some found := by
  have hspellings : ∀ s ∈ Switch.every, ∀ n ∈ s.spellings, Switch.ofSpelling? n = some s := by
    decide
  refine hspellings found ?_ name h
  rcases found with f | s
  · cases f <;> decide
  · cases s <;> decide

theorem ofSpelling?_of_equals {s : String} (h : '=' ∈ s.toList) : Switch.ofSpelling? s = none := by
  have hspellings : ∀ found ∈ Switch.every, ∀ n ∈ found.spellings, '=' ∉ n.toList := by decide
  refine List.find?_eq_none.2 fun found hfound hcontains => ?_
  exact hspellings found hfound s (List.contains_iff_mem.1 hcontains) h

theorem splitEquals?_of_append {name : String} (h : '=' ∉ name.toList) (value : String) :
    splitEquals? (name ++ "=" ++ value) = some (name, value) := by
  have hlist : (name ++ "=" ++ value).toList = name.toList ++ '=' :: value.toList := by simp
  have hname : ∀ c ∈ name.toList, (c != '=') = true := by
    intro c hc
    rw [bne_iff_ne]
    rintro rfl
    exact h hc
  rw [splitEquals?, hlist, List.dropWhile_append_of_pos hname, List.takeWhile_append_of_pos hname]
  simp

/-- A switch of several letters is told from the text after the first equals sign, whatever that
text is. -/
theorem classify_assigned {found : Switch} {name : String} (hname : name ∈ found.spellings)
    (hlong : isShort name = false) (value : String) :
    classify (name ++ "=" ++ value) = .assigned found value := by
  have hspelling := ofSpelling?_of_mem hname
  have hdashes : ∃ c cs, name.toList = '-' :: c :: cs := by
    have hspellings : ∀ s ∈ Switch.every, ∀ n ∈ s.spellings,
        n.toList.head? = some '-' ∧ 2 ≤ n.toList.length := by decide
    obtain ⟨hhead, hlength⟩ := hspellings found (List.mem_of_find?_eq_some hspelling) name hname
    match h : name.toList with
    | [] | [_] => simp [h] at hlength
    | d :: c :: cs =>
      rw [h, List.head?_cons, Option.some.injEq] at hhead
      exact ⟨c, cs, by rw [hhead]⟩
  have hnoEquals : '=' ∉ name.toList := fun hmem => by
    rw [ofSpelling?_of_equals hmem] at hspelling
    exact absurd hspelling nofun
  have hequals : '=' ∈ (name ++ "=" ++ value).toList := by simp
  have hne : name ++ "=" ++ value ≠ "--" := by
    intro heq
    rw [heq] at hequals
    exact absurd hequals (by decide)
  have hassigned : assigned? (name ++ "=" ++ value) = some (.assigned found value) := by
    simp [assigned?, splitEquals?_of_append hnoEquals, hspelling, hlong]
  obtain ⟨c, cs, hdashes⟩ := hdashes
  have hlist : (name ++ "=" ++ value).toList = '-' :: c :: (cs ++ '=' :: value.toList) := by
    simp [hdashes]
  rw [classify, hlist]
  simp only [if_neg hne, ofSpelling?_of_equals hequals, hassigned, Option.some_or]

end Argument

namespace Request

/-! ## One part after the other -/

/-- What a part is told as. -/
def Part.argument : Part → Argument
  | .exclude text => .assigned (.setting .exclude) text
  | .jobs n => .assigned (.setting .jobs) (toString n)
  | .failUnder n => .assigned (.setting .failUnder) (toString n)
  | .all => .switch (.flag .all)
  | .json => .switch (.flag .json)
  | .debug => .switch (.flag .debug)

theorem Part.classify_text (part : Part) : Argument.classify part.text = part.argument := by
  cases part with
  | exclude text =>
    rw [Part.text, show "--exclude=" = "--exclude" ++ "=" by decide]
    exact Argument.classify_assigned (by decide) (by decide) text
  | jobs n =>
    rw [Part.text, show "--jobs=" = "--jobs" ++ "=" by decide]
    exact Argument.classify_assigned (by decide) (by decide) (toString n)
  | failUnder n =>
    rw [Part.text, show "--fail-under=" = "--fail-under" ++ "=" by decide]
    exact Argument.classify_assigned (by decide) (by decide) (toString n)
  | all | json | debug => decide

theorem classifyAll_argv (parts : List Part) (path : String) :
    Argument.classifyAll (argv parts path) =
      parts.map Part.argument ++ [.separator, .word path] := by
  induction parts with
  | nil => rfl
  | cons part parts ih =>
    have hcons : argv (part :: parts) path = part.text :: argv parts path := rfl
    rw [hcons, Argument.classifyAll, part.classify_text, ih]
    cases part <;> rfl

/-- What a part makes of options. -/
def Part.apply (o : Options) : Part → Options
  | .exclude text => { o with exclude := o.exclude ++ [.value text] }
  | .jobs n => { o with jobs := some (.value n) }
  | .failUnder n => { o with failUnder := some (.value n) }
  | .all => { o with includeJs := true }
  | .json => { o with json := true }
  | .debug => { o with debug := true }

theorem integer_toString (s : Setting) {n : Int}
    (h : (Nat.toDigits 10 n.natAbs).length ≤ Text.maxDigits) :
    Options.integer s (Options.given (toString n)) = .ok (.value n) := by
  have hgiven : toString n ≠ "--" := by
    intro heq
    have hn := Text.parseInt?_toString h
    rw [heq, show Text.parseInt? "--" = none by decide] at hn
    exact absurd hn nofun
  rw [Options.given, if_neg hgiven]
  simp only [Options.integer, Text.parseInt?_toString h]

/-- Taking a part changes the options and nothing else. -/
theorem take_part {part : Part} (h : part.Writable) (p : Options.Progress)
    (rest : List Argument) :
    Options.take p (part.argument :: rest) =
      Options.take { p with options := part.apply p.options } rest := by
  cases part with
  | exclude text =>
    have hgiven : Options.given text = .value text := if_neg h
    simp only [Part.argument, Options.take, Options.Progress.assign, hgiven, Part.apply]
  | jobs n =>
    simp only [Part.argument, Options.take, Options.Progress.assign, integer_toString _ h,
      Except.map, Part.apply]
  | failUnder n =>
    simp only [Part.argument, Options.take, Options.Progress.assign, integer_toString _ h,
      Except.map, Part.apply]
  | all | json | debug => rfl

theorem take_parts {parts : List Part} (h : ∀ part ∈ parts, part.Writable) (p : Options.Progress)
    (rest : List Argument) :
    Options.take p (parts.map Part.argument ++ rest) =
      Options.take { p with options := parts.foldl Part.apply p.options } rest := by
  induction parts generalizing p with
  | nil => rfl
  | cons part parts ih =>
    obtain ⟨hpart, hparts⟩ := List.forall_mem_cons.1 h
    rw [List.map_cons, List.cons_append, take_part hpart, ih hparts, List.foldl_cons]

/-- Parts that are taken one after the other come to the request that they make up. -/
theorem foldl_apply (parts : List Part) :
    parts.foldl Part.apply Options.unset = (ofParts parts).options "." := by
  induction parts using List.reverseRecOn with
  | nil => rfl
  | append_singleton parts part ih =>
    rw [List.foldl_append, List.foldl_cons, List.foldl_nil, ih]
    cases part <;>
      simp [Part.apply, ofParts, options, List.filterMap_append, List.filterMap_cons,
        Part.exclusion?, Part.jobs?, Part.failUnder?]

/-- A command line is read as the request that its parts make up. -/
theorem parse_argv {parts : List Part} (h : ∀ part ∈ parts, part.Writable) (path : String) :
    Options.parse (argv parts path) = .ok ((ofParts parts).options path) := by
  have htake : Options.take ⟨Options.unset, false, []⟩ (Argument.classifyAll (argv parts path)) =
      .ok ⟨(ofParts parts).options path, true, []⟩ := by
    rw [classifyAll_argv, take_parts h, foldl_apply]
    rfl
  rw [Options.parse, htake]
  rfl

/-! ## Arrangements -/

theorem mem_flags {r : Request} {part : Part} :
    part ∈ r.flags ↔ r.all = true ∧ part = .all ∨ r.json = true ∧ part = .json ∨
      r.debug = true ∧ part = .debug := by
  simp [flags]

theorem mem_parts {r : Request} {part : Part} :
    part ∈ r.parts ↔ (∃ text ∈ r.exclude, .exclude text = part) ∨ (∃ n ∈ r.jobs, .jobs n = part) ∨
      (∃ n ∈ r.failUnder, .failUnder n = part) ∨ part ∈ r.flags := by
  simp [parts]

theorem Writable.part {r : Request} (h : r.Writable) {part : Part} (hpart : part ∈ r.parts) :
    part.Writable := by
  rcases mem_parts.1 hpart with ⟨text, htext, rfl⟩ | ⟨n, hn, rfl⟩ | ⟨n, hn, rfl⟩ | hflag
  · exact h.exclude text htext
  · exact h.jobs n hn
  · exact h.failUnder n hn
  · rcases mem_flags.1 hflag with ⟨-, rfl⟩ | ⟨-, rfl⟩ | ⟨-, rfl⟩ <;> trivial

/-- What is read off the parts of a request, where nothing is read off its flags. -/
theorem filterMap_parts {α : Type} {read : Part → Option α}
    (hflags : ∀ part ∈ [Part.all, .json, .debug], read part = none) (r : Request) :
    r.parts.filterMap read = r.exclude.filterMap (read ∘ .exclude) ++
      r.jobs.toList.filterMap (read ∘ .jobs) ++ r.failUnder.toList.filterMap (read ∘ .failUnder) := by
  have hnone : r.flags.filterMap read = [] := by
    refine List.filterMap_eq_nil_iff.2 fun part hpart => hflags part ?_
    rcases mem_flags.1 hpart with ⟨-, rfl⟩ | ⟨-, rfl⟩ | ⟨-, rfl⟩ <;> decide
  rw [parts, List.filterMap_append, hnone, List.append_nil, List.filterMap_append,
    List.filterMap_append, List.filterMap_map, List.filterMap_map, List.filterMap_map]

theorem exclusions_parts (r : Request) : r.parts.filterMap Part.exclusion? = r.exclude := by
  rw [filterMap_parts (by decide)]
  simp [Function.comp_def, Part.exclusion?]

theorem jobs_parts (r : Request) : r.parts.filterMap Part.jobs? = r.jobs.toList := by
  rw [filterMap_parts (by decide)]
  simp [Function.comp_def, Part.jobs?]

theorem failUnder_parts (r : Request) : r.parts.filterMap Part.failUnder? = r.failUnder.toList := by
  rw [filterMap_parts (by decide)]
  simp [Function.comp_def, Part.failUnder?]

theorem getLast?_of_perm_toList {α : Type} {l : List α} {o : Option α} (h : l.Perm o.toList) :
    l.getLast? = o := by
  cases o with
  | none => rw [List.perm_nil.1 h, List.getLast?_nil]
  | some a => rw [List.perm_singleton.1 h, List.getLast?_singleton]

/-- The parts of a request make it up again, however they are arranged. -/
theorem Arranges.ofParts_eq {r : Request} {parts : List Part} (h : r.Arranges parts) :
    ofParts parts = r := by
  have hexclude : parts.filterMap Part.exclusion? = r.exclude := by
    have hsublist := h.order.filterMap Part.exclusion?
    have hlength := (h.perm.filterMap Part.exclusion?).length_eq
    have hsame : (r.exclude.map Part.exclude).filterMap Part.exclusion? = r.exclude := by
      simp [List.filterMap_map, Function.comp_def, Part.exclusion?]
    rw [hsame] at hsublist
    rw [exclusions_parts] at hlength
    exact (hsublist.eq_of_length hlength.symm).symm
  have hjobs := h.perm.filterMap Part.jobs?
  have hfailUnder := h.perm.filterMap Part.failUnder?
  rw [jobs_parts] at hjobs
  rw [failUnder_parts] at hfailUnder
  have hflag (part : Part) : parts.contains part = true ↔ part ∈ r.parts := by
    rw [List.contains_iff_mem, h.perm.mem_iff]
  have hall : parts.contains .all = r.all := by
    rw [Bool.eq_iff_iff, hflag, mem_parts, mem_flags]
    simp
  have hjson : parts.contains .json = r.json := by
    rw [Bool.eq_iff_iff, hflag, mem_parts, mem_flags]
    simp
  have hdebug : parts.contains .debug = r.debug := by
    rw [Bool.eq_iff_iff, hflag, mem_parts, mem_flags]
    simp
  simp only [ofParts, hexclude, getLast?_of_perm_toList hjobs, getLast?_of_perm_toList hfailUnder,
    hall, hjson, hdebug]

/-- A request that is written in any arrangement is read back, and goes before the settings of the
project, whose exclusions it adds to. -/
theorem parse_arranged {r : Request} {parts : List Part} (hw : r.Writable) (h : r.Arranges parts)
    (path : String) :
    Options.parse (argv parts path) = .ok (r.options path) ∧
    ∀ c : Config, (r.options path).resolve c = {
      path := path
      includeJs := if r.all then true else c.includeJs
      json := r.json
      exclude := (c.exclude ++ r.exclude.map Json.symbols).map .value
      jobs := .value (r.jobs.getD c.jobs)
      failUnder := .value (r.failUnder.getD c.failUnder)
      debug := r.debug } := by
  constructor
  · have hparts : ∀ part ∈ parts, part.Writable :=
      fun part hpart => hw.part (h.perm.mem_iff.1 hpart)
    rw [parse_argv hparts, h.ofParts_eq]
  · intro c
    rcases r with ⟨exclude, _ | n, _ | m, all, json, debug⟩ <;>
      cases all <;> simp [options, Options.resolve, Given.map]

/-- A request with texts that look like other arguments, and numbers that are zero and negative. -/
def awkward : Request :=
  ⟨["", "--jobs=3", "a b=c"], some 0, some (-7), true, false, true⟩

/-- Its parts, with the exclusions among the others. -/
def awkwardParts : List Part :=
  [.debug, .exclude "", .failUnder (-7), .exclude "--jobs=3", .all, .exclude "a b=c", .jobs 0]

theorem parse_arranged_awkward : awkward.Writable ∧ awkward.Arranges awkwardParts ∧
    Options.parse ["--debug", "--exclude=", "--fail-under=-7", "--exclude=--jobs=3", "--all",
      "--exclude=a b=c", "--jobs=0", "--", "--"] = .ok (awkward.options "--") ∧
    ((awkward.options "--").resolve Config.default).jobs = .value 0 := by
  have hw : awkward.Writable := ⟨by decide, by decide, by decide⟩
  have h : awkward.Arranges awkwardParts := ⟨by decide, by decide⟩
  obtain ⟨hparse, hresolve⟩ := parse_arranged hw h "--"
  exact ⟨hw, h, hparse, by rw [hresolve]; rfl⟩

end Request

end SuiteLint
