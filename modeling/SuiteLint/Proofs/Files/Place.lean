import Mathlib.Data.List.Induction
import SuiteLint.Files.Lookup
import SuiteLint.Proofs.Files.Tree

/-!
# Places

A lookup passes from folder to folder and does not keep the names that lead to them. The place of a
folder is the list of these names, from the top of the tree. Here a lookup is followed by places:
`Arrives` says which place names lead to, and how many links are followed on the way. It says of
each lookup that ends in a folder which folder of the tree that is, where a trail tells only what
lies in it.
-/

namespace SuiteLint.Files

/-! ## Folders at places -/

namespace Folder

theorem at?_append {f inside : Folder} {as : List String}
    (h : f.at? as = some (.folder inside)) (bs : List String) :
    f.at? (as ++ bs) = inside.at? bs := by
  induction as generalizing f with
  | nil =>
    obtain rfl := Entry.folder.inj (Option.some.inj h)
    rfl
  | cons name as ih =>
    by_cases has : as = []
    · subst has
      exact at?_cons_of_folder h bs
    · obtain ⟨g, hget, hg⟩ := exists_folder_of_at? has h
      rw [List.cons_append, at?_cons_of_folder hget, ih hg]

/-- A way passes through folders only. -/
theorem exists_folder_of_at?_append {f : Folder} {as bs : List String} (hbs : bs ≠ [])
    {entry : Entry} (h : f.at? (as ++ bs) = some entry) :
    ∃ inside, f.at? as = some (.folder inside) := by
  induction as generalizing f with
  | nil => exact ⟨f, rfl⟩
  | cons name as ih =>
    obtain ⟨g, hget, hg⟩ := exists_folder_of_at? (by simp [hbs]) h
    obtain ⟨inside, hinside⟩ := ih hg
    exact ⟨inside, by rw [at?_cons_of_folder hget, hinside]⟩

/-- What holds of a tree and is handed on to the folders in a folder holds at every place. -/
theorem of_at?_folder {motive : Folder → Prop}
    (hget : ∀ {f name inside}, motive f → f.get? name = some (.folder inside) → motive inside)
    {f inside : Folder} {way : List String} (hf : motive f)
    (hat : f.at? way = some (.folder inside)) : motive inside := by
  induction way generalizing f with
  | nil =>
    obtain rfl := Entry.folder.inj (Option.some.inj hat)
    exact hf
  | cons name way ih =>
    by_cases hway : way = []
    · subst hway
      exact hget hf hat
    · obtain ⟨g, hname, hg⟩ := exists_folder_of_at? hway hat
      exact ih (hget hf hname) hg

end Folder

/-! ## Trails along places -/

namespace Trail

theorem along_append (t : Trail) (as bs : List String) :
    t.along (as ++ bs) = (t.along as).bind (·.along bs) := by
  induction as generalizing t with
  | nil => rfl
  | cons name as ih =>
    rw [List.cons_append, along, along]
    split
    · exact ih _
    · rfl

theorem along_singleton {t u : Trail} {name : String} :
    t.along [name] = some u ↔
      ∃ inside, t.here.get? name = some (.folder inside) ∧ u = t.enter inside := by
  simp only [along]
  constructor
  · intro h
    split at h
    · exact ⟨_, ‹_›, (Option.some.inj h).symm⟩
    · exact absurd h nofun
  · rintro ⟨inside, hget, rfl⟩
    rw [hget]

/-- The last step along a place. -/
theorem along_concat {t u : Trail} {names : List String} {name : String} :
    t.along (names ++ [name]) = some u ↔
      ∃ v inside, t.along names = some v ∧ v.here.get? name = some (.folder inside) ∧
        u = v.enter inside := by
  rw [along_append, Option.bind_eq_some_iff]
  refine exists_congr fun v => ?_
  rw [along_singleton]
  exact exists_and_left.symm

section

variable {top : Folder} {place : List String} {t : Trail}
  (h : (Trail.atTop top).along place = some t)

include h

theorem gone_of_along : t.gone = 0 := by
  cases place using List.reverseRecOn with
  | nil =>
    obtain rfl := Option.some.inj h
    rfl
  | append_singleton place name _ =>
    obtain ⟨v, inside, -, -, rfl⟩ := along_concat.1 h
    rfl

theorem top_of_along : t.top = .atTop top := by
  induction place using List.reverseRecOn generalizing t with
  | nil =>
    obtain rfl := Option.some.inj h
    rfl
  | append_singleton place name ih =>
    obtain ⟨v, inside, hv, -, rfl⟩ := along_concat.1 h
    show v.top = .atTop top
    exact ih hv

/-- The folder above is the one whose place has one name less. -/
theorem along_parent : (Trail.atTop top).along place.dropLast = some t.parent := by
  cases place using List.reverseRecOn with
  | nil =>
    obtain rfl := Option.some.inj h
    rfl
  | append_singleton place name _ =>
    obtain ⟨v, inside, hv, -, rfl⟩ := along_concat.1 h
    have hgone : v.gone = 0 := gone_of_along hv
    rw [List.dropLast_concat, hv]
    show some v = some ⟨v.here, v.above, 0⟩
    rw [← hgone]

theorem along_enter {name : String} {inside : Folder}
    (hget : t.here.get? name = some (.folder inside)) :
    (Trail.atTop top).along (place ++ [name]) = some (t.enter inside) :=
  along_concat.2 ⟨t, inside, h, hget, rfl⟩

theorem at?_of_along : top.at? place = some (.folder t.here) := by
  induction place using List.reverseRecOn generalizing t with
  | nil =>
    obtain rfl := Option.some.inj h
    rfl
  | append_singleton place name ih =>
    obtain ⟨v, inside, hv, hget, rfl⟩ := along_concat.1 h
    rw [Folder.at?_append (ih hv)]
    exact hget

theorem at?_concat_of_along (name : String) : top.at? (place ++ [name]) = t.here.get? name := by
  rw [Folder.at?_append (at?_of_along h)]
  rfl

end

end Trail

/-! ## The place that names lead to -/

/-- A name that is looked for among the entries of a folder. -/
structure Sought (name : String) : Prop where
  ne_empty : name ≠ ""
  ne_here : name ≠ "."
  ne_above : name ≠ ".."
  short : name.utf8ByteSize ≤ maxNameBytes

/-- From one place, names lead to another by way of the given number of links. Both are places of
folders. -/
inductive Arrives (top : Folder) : (links : Nat) → (place names place' : List String) → Prop
  | done (place : List String) : Arrives top 0 place [] place
  | here {links : Nat} {place names place' : List String} {name : String}
    (hname : name = "" ∨ name = ".") (h : Arrives top links place names place') :
    Arrives top links place (name :: names) place'
  | above {links : Nat} {place names place' : List String}
    (h : Arrives top links place.dropLast names place') :
    Arrives top links place (".." :: names) place'
  | folder {links : Nat} {place names place' : List String} {name : String} {inside : Folder}
    (hname : Sought name) (hat : top.at? (place ++ [name]) = some (.folder inside))
    (h : Arrives top links (place ++ [name]) names place') :
    Arrives top links place (name :: names) place'
  | link {links : Nat} {place names place' : List String} {name target : String}
    (hname : Sought name) (hat : top.at? (place ++ [name]) = some (.link target))
    (h : Arrives top links (if Path.isAbsolute target then [] else place)
      (Path.split target ++ names) place') :
    Arrives top (links + 1) place (name :: names) place'

namespace Arrives

variable {top : Folder} {i j links : Nat} {p q r as bs names : List String} {name : String}

theorem nil_inv (h : Arrives top links p [] q) : links = 0 ∧ q = p := by
  cases h
  exact ⟨rfl, rfl⟩

theorem here_inv (hname : name = "" ∨ name = ".") (h : Arrives top links p [name] q) :
    links = 0 ∧ q = p := by
  cases h with
  | here _ h => exact nil_inv h
  | above => simp at hname
  | folder hsought => exact absurd hname (not_or.2 ⟨hsought.ne_empty, hsought.ne_here⟩)
  | link hsought => exact absurd hname (not_or.2 ⟨hsought.ne_empty, hsought.ne_here⟩)

theorem above_inv (h : Arrives top links p [".."] q) : links = 0 ∧ q = p.dropLast := by
  cases h with
  | here hname => simp at hname
  | above h => exact nil_inv h
  | folder hsought => exact absurd rfl hsought.ne_above
  | link hsought => exact absurd rfl hsought.ne_above

theorem append (h : Arrives top i p as r) (h' : Arrives top j r bs q) :
    Arrives top (i + j) p (as ++ bs) q := by
  induction h with
  | done place =>
    rw [Nat.zero_add]
    exact h'
  | here hname _ ih => exact .here hname (ih h')
  | above _ ih => exact .above (ih h')
  | folder hname hat _ ih => exact .folder hname hat (ih h')
  | link hname hat _ ih =>
    rw [Nat.add_right_comm]
    refine .link hname hat ?_
    have hih := ih h'
    rwa [List.append_assoc] at hih

/-- Names on the way lead to a place on the way. -/
theorem split (h : Arrives top links p (as ++ bs) q) :
    ∃ i j r, i + j = links ∧ Arrives top i p as r ∧ Arrives top j r bs q := by
  generalize hnames : as ++ bs = names at h
  induction h generalizing as with
  | done place =>
    obtain ⟨rfl, rfl⟩ := List.append_eq_nil_iff.1 hnames
    exact ⟨0, 0, place, rfl, .done place, .done place⟩
  | here hname h ih =>
    rcases List.append_eq_cons_iff.1 hnames with ⟨rfl, rfl⟩ | ⟨as, rfl, rfl⟩
    · exact ⟨0, _, _, Nat.zero_add _, .done _, .here hname h⟩
    · obtain ⟨i, j, r, hij, has, hbs⟩ := ih rfl
      exact ⟨i, j, r, hij, .here hname has, hbs⟩
  | above h ih =>
    rcases List.append_eq_cons_iff.1 hnames with ⟨rfl, rfl⟩ | ⟨as, rfl, rfl⟩
    · exact ⟨0, _, _, Nat.zero_add _, .done _, .above h⟩
    · obtain ⟨i, j, r, hij, has, hbs⟩ := ih rfl
      exact ⟨i, j, r, hij, .above has, hbs⟩
  | folder hname hat h ih =>
    rcases List.append_eq_cons_iff.1 hnames with ⟨rfl, rfl⟩ | ⟨as, rfl, rfl⟩
    · exact ⟨0, _, _, Nat.zero_add _, .done _, .folder hname hat h⟩
    · obtain ⟨i, j, r, hij, has, hbs⟩ := ih rfl
      exact ⟨i, j, r, hij, .folder hname hat has, hbs⟩
  | link hname hat h ih =>
    rcases List.append_eq_cons_iff.1 hnames with ⟨rfl, rfl⟩ | ⟨as, rfl, rfl⟩
    · exact ⟨0, _, _, Nat.zero_add _, .done _, .link hname hat h⟩
    · obtain ⟨i, j, r, hij, has, hbs⟩ := ih (List.append_assoc _ as bs)
      exact ⟨i + 1, j, r, by omega, .link hname hat has, hbs⟩

/-- Names lead to one place only, by way of the same links. -/
theorem unique (h : Arrives top i p names q) (h' : Arrives top j p names r) : i = j ∧ q = r := by
  induction h generalizing j with
  | done place =>
    obtain ⟨rfl, rfl⟩ := nil_inv h'
    exact ⟨rfl, rfl⟩
  | here hname _ ih =>
    cases h' with
    | here _ h' => exact ih h'
    | above => simp at hname
    | folder hsought => exact absurd hname (not_or.2 ⟨hsought.ne_empty, hsought.ne_here⟩)
    | link hsought => exact absurd hname (not_or.2 ⟨hsought.ne_empty, hsought.ne_here⟩)
  | above _ ih =>
    cases h' with
    | here hname => simp at hname
    | above h' => exact ih h'
    | folder hsought => exact absurd rfl hsought.ne_above
    | link hsought => exact absurd rfl hsought.ne_above
  | folder hsought hat _ ih =>
    cases h' with
    | here hname => exact absurd hname (not_or.2 ⟨hsought.ne_empty, hsought.ne_here⟩)
    | above => exact absurd rfl hsought.ne_above
    | folder _ _ h' => exact ih h'
    | link _ hat' => exact absurd (hat.symm.trans hat') nofun
  | link hsought hat _ ih =>
    cases h' with
    | here hname => exact absurd hname (not_or.2 ⟨hsought.ne_empty, hsought.ne_here⟩)
    | above => exact absurd rfl hsought.ne_above
    | folder _ hat' => exact absurd (hat.symm.trans hat') nofun
    | link _ hat' h' =>
      obtain rfl := Entry.link.inj (Option.some.inj (hat.symm.trans hat'))
      obtain ⟨rfl, rfl⟩ := ih h'
      exact ⟨rfl, rfl⟩

/-- Names of folders that lie in each other lead down into them. -/
theorem down {inside : Folder} {way : List String} (hway : ∀ name ∈ way, Sought name)
    (hat : top.at? (p ++ way) = some (.folder inside)) : Arrives top 0 p way (p ++ way) := by
  induction way generalizing p with
  | nil =>
    rw [List.append_nil]
    exact .done p
  | cons name way ih =>
    have hstep : p ++ name :: way = p ++ [name] ++ way := by simp
    rw [hstep] at hat ⊢
    obtain ⟨f, hf⟩ : ∃ f, top.at? (p ++ [name]) = some (.folder f) := by
      by_cases hempty : way = []
      · rw [hempty, List.append_nil] at hat
        exact ⟨inside, hat⟩
      · exact Folder.exists_folder_of_at?_append hempty hat
    exact .folder (hway name List.mem_cons_self) hf
      (ih (fun n hn => hway n (List.mem_cons_of_mem name hn)) hat)

end Arrives

/-! ## Lookups by places -/

section

variable {onLink : Trail → List String → Except Cause Found} {t : Trail} {links : Nat}
  {name : String} {names : List String}

theorem follow_sought (hname : Sought name) (hgone : t.gone = 0) :
    follow onLink t (name :: names) =
      match t.here.get? name with
      | none => .error .notFound
      | some (.folder inside) => follow onLink (t.enter inside) names
      | some (.file bytes) => if names.isEmpty then .ok (.file bytes) else .error .notFolder
      | some (.link target) =>
        onLink (if Path.isAbsolute target then t.top else t) (Path.split target ++ names) :=
  (if_neg (not_or.2 ⟨hname.ne_empty, hname.ne_here⟩)).trans <| (if_neg hname.ne_above).trans <|
    (if_neg (not_not.2 hgone)).trans (if_neg (Nat.not_lt.2 hname.short))

theorem followLinks_nil : followLinks links t [] = .ok (.folder t) := by
  cases links <;> rfl

theorem followLinks_here (hname : name = "" ∨ name = ".") :
    followLinks links t (name :: names) = followLinks links t names := by
  cases links <;> exact if_pos hname

theorem followLinks_above : followLinks links t (".." :: names) =
    followLinks links t.parent names := by
  cases links <;> simp [followLinks, follow]

theorem followLinks_folder (hname : Sought name) (hgone : t.gone = 0) {inside : Folder}
    (hget : t.here.get? name = some (.folder inside)) :
    followLinks links t (name :: names) = followLinks links (t.enter inside) names := by
  cases links <;> simp only [followLinks, follow_sought hname hgone, hget]

theorem followLinks_file (hname : Sought name) (hgone : t.gone = 0) {bytes : List UInt8}
    (hget : t.here.get? name = some (.file bytes)) :
    followLinks links t [name] = .ok (.file bytes) := by
  cases links <;> simp [followLinks, follow_sought hname hgone, hget]

theorem followLinks_link (hname : Sought name) (hgone : t.gone = 0) {target : String}
    (hget : t.here.get? name = some (.link target)) :
    followLinks (links + 1) t (name :: names) =
      followLinks links (if Path.isAbsolute target then t.top else t)
        (Path.split target ++ names) := by
  simp only [followLinks, follow_sought hname hgone, hget]

end

section

variable {top : Folder} {links : Nat} {place names place' : List String} {t u : Trail}

/-- The folder from which a link is followed. -/
theorem Trail.along_link (h : (Trail.atTop top).along place = some t) (rooted : Bool) :
    (Trail.atTop top).along (if rooted then [] else place) =
      some (if rooted then t.top else t) := by
  cases rooted with
  | true => exact congrArg some (top_of_along h).symm
  | false => exact h

/-- A lookup goes on from the place that its first names lead to. -/
theorem Arrives.followLinks (h : Arrives top links place names place')
    (ht : (Trail.atTop top).along place = some t) :
    ∃ u, (Trail.atTop top).along place' = some u ∧
      ∀ more rest, followLinks (more + links) t (names ++ rest) = followLinks more u rest := by
  induction h generalizing t with
  | done place => exact ⟨t, ht, fun more rest => rfl⟩
  | here hname _ ih =>
    obtain ⟨u, hu, hfollow⟩ := ih ht
    refine ⟨u, hu, fun more rest => ?_⟩
    rw [List.cons_append, followLinks_here hname, hfollow]
  | above _ ih =>
    obtain ⟨u, hu, hfollow⟩ := ih (Trail.along_parent ht)
    refine ⟨u, hu, fun more rest => ?_⟩
    rw [List.cons_append, followLinks_above, hfollow]
  | folder hname hat _ ih =>
    rw [Trail.at?_concat_of_along ht] at hat
    obtain ⟨u, hu, hfollow⟩ := ih (Trail.along_enter ht hat)
    refine ⟨u, hu, fun more rest => ?_⟩
    rw [List.cons_append, followLinks_folder hname (Trail.gone_of_along ht) hat, hfollow]
  | link hname hat _ ih =>
    rw [Trail.at?_concat_of_along ht] at hat
    obtain ⟨u, hu, hfollow⟩ := ih (Trail.along_link ht _)
    refine ⟨u, hu, fun more rest => ?_⟩
    rw [List.cons_append, ← Nat.add_assoc, followLinks_link hname (Trail.gone_of_along ht) hat,
      ← List.append_assoc, hfollow]

theorem arrives_of_follow {onLink : Trail → List String → Except Cause Found}
    (honLink : ∀ {place t}, (Trail.atTop top).along place = some t → ∀ {names u},
      onLink t names = .ok (.folder u) → ∃ used place', used < links ∧
        Arrives top used place names place' ∧ (Trail.atTop top).along place' = some u)
    (ht : (Trail.atTop top).along place = some t)
    (h : follow onLink t names = .ok (.folder u)) :
    ∃ used place', used ≤ links ∧ Arrives top used place names place' ∧
      (Trail.atTop top).along place' = some u := by
  induction names generalizing place t with
  | nil =>
    obtain rfl := Found.folder.inj (Except.ok.inj h)
    exact ⟨0, place, Nat.zero_le links, .done place, ht⟩
  | cons name names ih =>
    by_cases hhere : name = "" ∨ name = "."
    · rw [follow, if_pos hhere] at h
      obtain ⟨used, place', hused, harrives, hplace⟩ := ih ht h
      exact ⟨used, place', hused, .here hhere harrives, hplace⟩
    by_cases habove : name = ".."
    · subst habove
      rw [follow, if_neg hhere, if_pos rfl] at h
      obtain ⟨used, place', hused, harrives, hplace⟩ := ih (Trail.along_parent ht) h
      exact ⟨used, place', hused, .above harrives, hplace⟩
    have hgone := Trail.gone_of_along ht
    by_cases hlong : maxNameBytes < name.utf8ByteSize
    · rw [follow, if_neg hhere, if_neg habove, if_neg (not_not.2 hgone), if_pos hlong] at h
      cases h
    obtain ⟨hempty, hdot⟩ := not_or.1 hhere
    have hname : Sought name := ⟨hempty, hdot, habove, Nat.not_lt.1 hlong⟩
    have hat := Trail.at?_concat_of_along ht name
    rw [follow_sought hname hgone] at h
    split at h
    · cases h
    · rename_i inside hget
      obtain ⟨used, place', hused, harrives, hplace⟩ := ih (Trail.along_enter ht hget) h
      exact ⟨used, place', hused, .folder hname (hat.trans hget) harrives, hplace⟩
    · split at h <;> cases h
    · rename_i target hget
      obtain ⟨used, place', hused, harrives, hplace⟩ := honLink (Trail.along_link ht _) h
      exact ⟨used + 1, place', hused, .link hname (hat.trans hget) harrives, hplace⟩

/-- A lookup that ends in a folder leads to the place of this folder. -/
theorem arrives_of_followLinks (ht : (Trail.atTop top).along place = some t)
    (h : followLinks links t names = .ok (.folder u)) :
    ∃ used place', used ≤ links ∧ Arrives top used place names place' ∧
      (Trail.atTop top).along place' = some u := by
  induction links generalizing place t names u with
  | zero =>
    refine arrives_of_follow (fun _ _ _ hlink => ?_) ht h
    exact absurd hlink nofun
  | succ links ih =>
    refine arrives_of_follow (fun ht' _ _ hlink => ?_) ht h
    obtain ⟨used, place', hused, harrives, hplace⟩ := ih ht' hlink
    exact ⟨used, place', Nat.lt_succ_of_le hused, harrives, hplace⟩

end

/-! ## More links -/

theorem follow_agree {onLink onLink' : Trail → List String → Except Cause Found}
    (honLink : ∀ t names, onLink t names ≠ .error .tooManyLinks →
      onLink' t names = onLink t names) (t : Trail) (names : List String)
    (h : follow onLink t names ≠ .error .tooManyLinks) :
    follow onLink' t names = follow onLink t names := by
  induction names generalizing t with
  | nil => rfl
  | cons name names ih =>
    unfold follow at h ⊢
    split
    · exact ih t (by simp_all)
    split
    · exact ih t.parent (by simp_all)
    split
    · rfl
    split
    · rfl
    cases hget : t.here.get? name with
    | none => rfl
    | some entry =>
      cases entry with
      | file bytes => rfl
      | folder inside => exact ih (t.enter inside) (by simp_all)
      | link target => exact honLink _ _ (by simp_all)

/-- A lookup that needs no more links comes to the same with more. -/
theorem followLinks_agree {links : Nat} (more : Nat) {t : Trail} {names : List String}
    (h : followLinks links t names ≠ .error .tooManyLinks) :
    followLinks (links + more) t names = followLinks links t names := by
  induction links generalizing t names with
  | zero =>
    have hnone : ∀ onLink : Trail → List String → Except Cause Found,
        follow onLink t names = followLinks 0 t names := fun onLink =>
      follow_agree (fun _ _ hlink => absurd rfl hlink) t names h
    cases more <;> exact hnone _
  | succ links ih =>
    rw [Nat.add_right_comm]
    exact follow_agree (fun t names hlink => ih hlink) t names h

end SuiteLint.Files
