import SuiteLint.Abort
import SuiteLint.Proofs.Files.Place
import SuiteLint.Proofs.Path.Normal

/-!
# The entry that a path names

A path names an entry of the tree by the folder that its names lead to, all but the last, and by
its last name. The entry may be a link, and then it is named and not what it points to. A path and
its normal form name the same as long as no `..` takes back a link: the normal form of `link/..` is
the folder that holds the link, but `..` leads out of the folder that the link points to.
-/

namespace SuiteLint.Files

/-- What an entry of a folder is called in a file system. -/
def IsEntryName (name : String) : Prop :=
  Path.IsName name ∧ hasNull name = false ∧ name.utf8ByteSize ≤ maxNameBytes

instance : DecidablePred IsEntryName := fun _ => inferInstanceAs (Decidable (_ ∧ _))

theorem IsEntryName.sought {name : String} (h : IsEntryName name) : Sought name :=
  ⟨h.1.1, h.1.2.1, h.1.2.2.1, h.2.2⟩

/-! ## Normal forms and links -/

section

variable {top : Folder} {links : Nat} {start place : List String}

theorem Arrives.of_empty {front : List String} (h : ∀ n ∈ front, n = "") :
    Arrives top 0 start front start := by
  induction front with
  | nil => exact .done start
  | cons name front ih =>
    exact .here (Or.inl (h name List.mem_cons_self)) (ih fun n hn => h n (List.mem_cons_of_mem _ hn))

/-- A `..` among names takes back a link: the last name on the stack is that of a link. -/
def TakesBack (top : Folder) (rooted : Bool) (start names : List String) : Prop :=
  ∃ front back name below links place target, names = front ++ ".." :: back ∧
    front.foldl (Path.push rooted) [] = name :: below ∧ name ≠ ".." ∧
    Arrives top links start below.reverse place ∧ top.at? (place ++ [name]) = some (.link target)

theorem TakesBack.append {rooted : Bool} {names : List String}
    (h : TakesBack top rooted start names) (more : List String) :
    TakesBack top rooted start (names ++ more) := by
  obtain ⟨front, back, name, below, links, place, target, rfl, hrest⟩ := h
  exact ⟨front, back ++ more, name, below, links, place, target, by simp, hrest⟩

/-- The last name on the stack and `..` lead back, if the name is not that of a link. -/
theorem Arrives.takeBack {name : String} {below : List String} (hempty : name ≠ "")
    (hhere : name ≠ ".") (habove : name ≠ "..")
    (hlink : ∀ links place target, Arrives top links start below.reverse place →
      top.at? (place ++ [name]) ≠ some (.link target))
    (h : Arrives top links start (below.reverse ++ [name]) place) :
    Arrives top links start below.reverse place.dropLast := by
  obtain ⟨i, j, r, rfl, hbelow, hname⟩ := h.split
  cases hname with
  | here hskip => exact absurd hskip (not_or.2 ⟨hempty, hhere⟩)
  | above => exact absurd rfl habove
  | folder _ _ hdone =>
    obtain ⟨rfl, rfl⟩ := hdone.nil_inv
    rw [List.dropLast_concat]
    exact hbelow
  | link _ hat => exact absurd hat (hlink _ _ _ hbelow)

/-- The normal form of names leads to the same place, by way of the same links. -/
theorem Arrives.collapse {rooted : Bool} {names : List String} (hstart : rooted = true → start = [])
    (hkeeps : ¬ TakesBack top rooted start names) (h : Arrives top links start names place) :
    Arrives top links start (Path.collapse rooted names) place := by
  -- One name after the other is put on the stack; the stack so far leads where the names do.
  induction names using List.reverseRecOn generalizing links place with
  | nil => exact h
  | append_singleton names name ih =>
    obtain ⟨i, j, r, rfl, hnames, hname⟩ := h.split
    have hstack := ih (fun htakes => hkeeps (htakes.append [name])) hnames
    rw [Path.collapse] at hstack
    rw [Path.collapse, List.foldl_append, List.foldl_cons, List.foldl_nil]
    have hproper := Path.foldl_push_ne rooted names
    generalize hfold : names.foldl (Path.push rooted) [] = stack at hstack hproper
    unfold Path.push
    split
    · obtain ⟨rfl, rfl⟩ := hname.here_inv ‹_›
      exact hstack
    · split
      · rename_i habove
        subst habove
        obtain ⟨rfl, rfl⟩ := hname.above_inv
        cases stack with
        | nil =>
          obtain ⟨rfl, rfl⟩ := hstack.nil_inv
          cases rooted with
          | true =>
            rw [hstart rfl]
            exact .done []
          | false => exact .above (.done _)
        | cons last below =>
          rw [List.reverse_cons] at hstack
          show Arrives top i start (if last = ".." then _ else below).reverse _
          split
          · rw [List.reverse_cons, List.reverse_cons]
            exact hstack.append (.above (.done _))
          · rename_i hlast
            obtain ⟨hempty, hhere⟩ := hproper last List.mem_cons_self
            refine hstack.takeBack hempty hhere hlast fun links place target hbelow hat => ?_
            exact hkeeps ⟨names, [], last, below, links, place, target, rfl, hfold, hlast, hbelow,
              hat⟩
      · rw [List.reverse_cons]
        exact hstack.append hname

end

/-! ## Paths -/

namespace FileSystem

variable {fs : FileSystem} {path : String} {place : List String}

/-- The place where a path starts. -/
def startPlace (fs : FileSystem) (rooted : Bool) : List String :=
  if rooted then [] else fs.cwd

theorem along_startPlace {t : Trail} (hlocates : fs.locates path = true)
    (hstart : fs.start? (Path.isAbsolute path) = some t) :
    (Trail.atTop fs.top).along (fs.startPlace (Path.isAbsolute path)) = some t := by
  unfold start? at hstart
  unfold locates at hlocates
  unfold startPlace
  cases hrooted : Path.isAbsolute path with
  | true =>
    rw [hrooted] at hstart
    exact hstart
  | false =>
    rw [hrooted, Bool.false_or, beq_iff_eq] at hlocates
    simpa [hrooted, hlocates, Trail.sink] using hstart

/-- The place of the folder that a path leads to. -/
def Leads (fs : FileSystem) (path : String) (place : List String) : Prop :=
  ∃ links ≤ maxLinks,
    Arrives fs.top links (fs.startPlace (Path.isAbsolute path)) (Path.split path) place

theorem Leads.unique {place' : List String} (h : fs.Leads path place)
    (h' : fs.Leads path place') : place = place' := by
  obtain ⟨links, -, harrives⟩ := h
  obtain ⟨links', -, harrives'⟩ := h'
  exact (harrives.unique harrives').2

theorem lookup_eq (hne : path ≠ "") (hfits : fits path = true) {t : Trail}
    (hstart : fs.start? (Path.isAbsolute path) = some t) :
    fs.lookup path = followLinks maxLinks t (Path.split path) := by
  rw [lookup, if_neg hne, hfits, hstart]
  rfl

/-- What a lookup that does not fail starts from. -/
theorem lookup_ok {found : Found} (h : fs.lookup path = .ok found) :
    ∃ t, fs.start? (Path.isAbsolute path) = some t ∧
      followLinks maxLinks t (Path.split path) = .ok found := by
  unfold lookup at h
  split at h
  · exact absurd h nofun
  · split at h
    · exact absurd h nofun
    · split at h
      · exact absurd h nofun
      · exact ⟨_, ‹_›, h⟩

theorem leads_of_lookup {t : Trail} (hlocates : fs.locates path = true)
    (h : fs.lookup path = .ok (.folder t)) :
    ∃ place, fs.Leads path place ∧ (Trail.atTop fs.top).along place = some t := by
  obtain ⟨u, hstart, hfollow⟩ := lookup_ok h
  obtain ⟨links, place, hlinks, harrives, hplace⟩ :=
    arrives_of_followLinks (along_startPlace hlocates hstart) hfollow
  exact ⟨place, ⟨links, hlinks, harrives⟩, hplace⟩

theorem lookup_of_leads {t u : Trail} (hne : path ≠ "") (hfits : fits path = true)
    (hlocates : fs.locates path = true) (hstart : fs.start? (Path.isAbsolute path) = some u)
    (h : fs.Leads path place) (hplace : (Trail.atTop fs.top).along place = some t) :
    fs.lookup path = .ok (.folder t) := by
  obtain ⟨links, hlinks, harrives⟩ := h
  obtain ⟨v, hv, hfollow⟩ := harrives.followLinks (along_startPlace hlocates hstart)
  obtain rfl : t = v := Option.some.inj (hplace.symm.trans hv)
  have hdone := hfollow (maxLinks - links) []
  rw [Nat.sub_add_cancel hlinks, List.append_nil, followLinks_nil] at hdone
  rw [lookup_eq hne hfits hstart, hdone]

/-- A path names the entry at a place: the names before the last one lead to the folder that holds
it. If it is a link, it is not followed. -/
def Names (fs : FileSystem) (path : String) (place : List String) : Prop :=
  ∃ front name links folder, Path.split path = front ++ [name] ∧ Sought name ∧ links ≤ maxLinks ∧
    Arrives fs.top links (fs.startPlace (Path.isAbsolute path)) front folder ∧
    place = folder ++ [name] ∧ (fs.top.at? place).isSome = true

theorem Names.unique {place' : List String} (h : fs.Names path place)
    (h' : fs.Names path place') : place = place' := by
  obtain ⟨front, name, links, folder, hsplit, -, -, harrives, rfl, -⟩ := h
  obtain ⟨front', name', links', folder', hsplit', -, -, harrives', rfl, -⟩ := h'
  obtain ⟨rfl, hname⟩ := List.append_inj' (hsplit.symm.trans hsplit') rfl
  rw [(harrives.unique harrives').2, hname]

/-- Some `..` on a path takes back a link. -/
def TakesBackLink (fs : FileSystem) (path : String) : Prop :=
  TakesBack fs.top (Path.isAbsolute path) (fs.startPlace (Path.isAbsolute path)) (Path.split path)

/-- Below a folder, the normal form of a path names the entry that the path names. -/
theorem names_normal {target : String} {base way : List String} {entry : Entry}
    (hleads : fs.Leads target base) (hkeeps : ¬ fs.TakesBackLink target) (hne : way ≠ [])
    (hway : ∀ name ∈ way, IsEntryName name) (hat : fs.top.at? (base ++ way) = some entry) :
    fs.Names ((Path.root target).text ++
      Path.unsplit (Path.collapse (Path.isAbsolute target) (Path.split target) ++ way))
      (base ++ way) := by
  obtain ⟨front, name, rfl⟩ : ∃ front name, way = front ++ [name] :=
    ⟨_, _, (List.dropLast_concat_getLast hne).symm⟩
  set kept := Path.collapse (Path.isAbsolute target) (Path.split target) with hkept
  have hproper : ∀ n ∈ kept ++ (front ++ [name]), Path.IsKept n :=
    Path.isKept_collapse_append (fun n hn => (hway n hn).1) _ target
  obtain ⟨empties, hempties, hsplit⟩ :=
    Path.split_text_unsplit (by simp) hproper (Path.root target)
  have hroot := Path.root_text_unsplit (by simp) hproper (Path.root target)
  obtain ⟨links, hlinks, harrives⟩ := hleads
  have hnormal : Arrives fs.top links (fs.startPlace (Path.isAbsolute target)) kept base := by
    refine harrives.collapse (fun hrooted => ?_) hkeeps
    rw [hrooted]
    rfl
  obtain ⟨inside, hinside⟩ : ∃ inside, fs.top.at? (base ++ front) = some (.folder inside) := by
    rw [← List.append_assoc] at hat
    exact Folder.exists_folder_of_at?_append (List.cons_ne_nil name []) hat
  have hdown : Arrives fs.top 0 base front (base ++ front) :=
    Arrives.down (fun n hn => (hway n (List.mem_append_left [name] hn)).sought) hinside
  refine ⟨empties ++ (kept ++ front), name, links, base ++ front, ?_, ?_, hlinks, ?_, ?_, ?_⟩
  · rw [hsplit]
    simp only [List.append_assoc]
  · exact (hway name (by simp)).sought
  · rw [Path.isAbsolute, hroot, ← Path.isAbsolute]
    have hall := (Arrives.of_empty hempties).append (hnormal.append hdown)
    rwa [Nat.zero_add] at hall
  · rw [List.append_assoc]
  · rw [hat]
    rfl

section

variable (hnames : fs.Names path place) (hlocates : fs.locates path = true)
  (hfits : fits path = true) {t : Trail} (hstart : fs.start? (Path.isAbsolute path) = some t)

include hnames hlocates hfits hstart

/-- The lookup of a path comes down to its last name, in the folder that holds the entry. -/
theorem Names.lookup_eq_last :
    ∃ folder name links u, place = folder ++ [name] ∧ Sought name ∧ links ≤ maxLinks ∧
      (Trail.atTop fs.top).along folder = some u ∧
      fs.lookup path = followLinks links u [name] := by
  obtain ⟨front, name, links, folder, hsplit, hname, hlinks, harrives, rfl, -⟩ := hnames
  obtain ⟨u, hu, hfollow⟩ := harrives.followLinks (along_startPlace hlocates hstart)
  refine ⟨folder, name, maxLinks - links, u, rfl, hname, Nat.sub_le _ _, hu, ?_⟩
  have hne : path ≠ "" := by
    rintro rfl
    have hempty : [""] = front ++ [name] := hsplit
    have hmem : name ∈ [""] := hempty ▸ List.mem_append_right front List.mem_cons_self
    exact hname.ne_empty (List.mem_singleton.1 hmem)
  rw [lookup_eq hne hfits hstart, hsplit, ← hfollow, Nat.sub_add_cancel hlinks]

theorem Names.lookup_of_file {bytes : List UInt8}
    (hat : fs.top.at? place = some (.file bytes)) : fs.lookup path = .ok (.file bytes) := by
  obtain ⟨folder, name, links, u, rfl, hname, -, hu, hlookup⟩ :=
    hnames.lookup_eq_last hlocates hfits hstart
  rw [Trail.at?_concat_of_along hu] at hat
  rw [hlookup, followLinks_file hname (Trail.gone_of_along hu) hat]

/-- A path leads where the entry that it names leads from the top, unless too many links are
followed on the way to the entry. -/
theorem Names.lookup_eq_entry (hplace : ∀ n ∈ place, Sought n)
    (hmany : fs.lookup path ≠ .error .tooManyLinks) :
    fs.lookup path = followLinks maxLinks (Trail.atTop fs.top) place := by
  obtain ⟨folder, name, links, u, rfl, hname, hlinks, hu, hlookup⟩ :=
    hnames.lookup_eq_last hlocates hfits hstart
  have hdown : Arrives fs.top 0 [] folder ([] ++ folder) :=
    Arrives.down (fun n hn => hplace n (List.mem_append_left [name] hn)) (Trail.at?_of_along hu)
  obtain ⟨v, hv, hfollow⟩ := hdown.followLinks rfl
  obtain rfl : u = v := Option.some.inj (hu.symm.trans hv)
  rw [hlookup] at hmany ⊢
  rw [← Nat.add_zero maxLinks, hfollow, ← followLinks_agree (maxLinks - links) hmany,
    Nat.add_sub_cancel' hlinks]

end

end FileSystem

end SuiteLint.Files
