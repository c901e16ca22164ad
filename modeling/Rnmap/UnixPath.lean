/-
**Unix paths and their extensions.**

The last component of a path is read off its text: separators and components `.` behind it do not
count.  A file name falls into a stem and an extension at its last dot, unless that dot comes
first; giving a path an extension replaces the one it has.

Two paths that differ as texts may lead to the same place.  `location` forgets what makes no
difference: repeated separators and components `.`.

Main definitions:

* `UnixPath.fileName`, `UnixPath.fileStem`, `UnixPath.withExtension` — the last component of a
  path, the stem of a file name, and a path with another extension;
* `UnixPath.location` — where a path leads.

Main results:

* `UnixPath.fileStem_eq_self_iff` — a file name is its own stem unless it has an inner dot;
* `UnixPath.withExtension_eq_append_iff` — **when giving an extension appends it**;
* `UnixPath.location_append` — where a file of a directory is;
* `UnixPath.location_withExtension_eq_iff` — **when two paths with extensions lead to the same
  file**.
-/

import Rnmap.Text

set_option relaxedAutoImplicit false
set_option autoImplicit false

namespace UnixPath

open Text

/-! ### The last component -/

/-- Drop the separators and the components `.` at the end of a path, which is given from its
end. -/
def trimEnd : Text → Text
  | '/' :: s => trimEnd s
  | '.' :: '/' :: s => trimEnd s
  | s => s

/-- A path up to the end of its last component. -/
def body (p : Text) : Text := (trimEnd p.reverse).reverse

/-- What stands in front of the last component of a path. -/
def parent (p : Text) : Text := (body p).rdropWhile (· != '/')

/-- The last component of a path. -/
def lastName (p : Text) : Text := (body p).rtakeWhile (· != '/')

/-- The texts that name a file in its directory. -/
structure IsFileName (name : Text) : Prop where
  ne_nil : name ≠ []
  ne_dot : name ≠ ['.']
  ne_dotdot : name ≠ ['.', '.']
  slash_notMem : '/' ∉ name

/-- `Path::file_name`. -/
def fileName (p : Text) : Option Text :=
  if lastName p = [] ∨ lastName p = ['.'] ∨ lastName p = ['.', '.'] then none
  else some (lastName p)

theorem slash_notMem_lastName (p : Text) : '/' ∉ lastName p := by
  intro h
  have := List.mem_rtakeWhile_imp h
  simp at this

theorem parent_append_lastName (p : Text) : parent p ++ lastName p = body p :=
  List.rdropWhile_append_rtakeWhile

theorem fileName_eq_some {p name : Text} (h : fileName p = some name) :
    IsFileName name ∧ parent p ++ name = body p := by
  unfold fileName at h
  split_ifs at h with hlast
  obtain rfl := Option.some.inj h
  rw [not_or, not_or] at hlast
  exact ⟨⟨hlast.1, hlast.2.1, hlast.2.2, slash_notMem_lastName p⟩, parent_append_lastName p⟩

theorem trimEnd_suffix : ∀ s : Text, trimEnd s <:+ s := by
  intro s
  induction s using trimEnd.induct with
  | case1 s ih =>
      rw [trimEnd]
      exact ih.trans (List.suffix_cons _ _)
  | case2 s ih =>
      rw [trimEnd]
      exact ih.trans ((List.suffix_cons _ _).trans (List.suffix_cons _ _))
  | case3 s h1 h2 => rw [trimEnd.eq_3 s h1 h2]

theorem body_isPrefix (p : Text) : body p <+: p := by
  rw [← List.reverse_suffix, body, List.reverse_reverse]
  exact trimEnd_suffix _

/-- Nothing is dropped from a path that ends with a file name. -/
theorem body_eq_self {p name : Text} (hname : IsFileName name) (h : name <:+ p) : body p = p := by
  obtain ⟨dir, rfl⟩ := h
  obtain ⟨c, t, hrev⟩ : ∃ c t, name.reverse = c :: t :=
    List.exists_cons_of_ne_nil (by simpa using hname.ne_nil)
  have hslash : '/' ∉ c :: t :=
    fun hmem => hname.slash_notMem (List.mem_reverse.1 (hrev ▸ hmem))
  suffices htrim : trimEnd (name.reverse ++ dir.reverse) = name.reverse ++ dir.reverse by
    rw [body, List.reverse_append, htrim, ← List.reverse_append, List.reverse_reverse]
  rw [hrev]
  apply trimEnd.eq_3
  · intro s hs
    obtain ⟨rfl, -⟩ := List.cons.inj hs
    exact hslash List.mem_cons_self
  · intro s hs
    obtain ⟨rfl, hs'⟩ := List.cons.inj hs
    cases t with
    | nil => exact hname.ne_dot (List.reverse_inj.1 hrev)
    | cons d t =>
        obtain ⟨rfl, -⟩ := List.cons.inj hs'
        exact hslash (List.mem_cons_of_mem _ List.mem_cons_self)

/-- The parent of a path is empty or ends with a separator. -/
theorem parent_eq_nil_or (p : Text) : parent p = [] ∨ ['/'] <:+ parent p := by
  rcases eq_or_ne (parent p) [] with hnil | hne
  · exact .inl hnil
  · have hlast : (parent p).getLast hne = '/' := by
      have hnot : ¬((parent p).getLast hne != '/') = true := List.rdropWhile_last_not _ _ hne
      simpa using hnot
    refine .inr ⟨(parent p).dropLast, ?_⟩
    rw [← hlast]
    exact List.dropLast_append_getLast hne

/-! ### Stem and extension -/

/-- The stem of a file name: what stands before its last dot, or the whole name if it has no dot
or only one in front. -/
def fileStem (name : Text) : Text :=
  match splitOnce '.' name.reverse with
  | some (_, before) => if before = [] then name else before.reverse
  | none => name

/-- `Path::with_extension`: a path without a file name stays as it is. -/
def withExtension (p e : Text) : Text :=
  match fileName p with
  | some name => parent p ++ fileStem name ++ if e = [] then [] else '.' :: e
  | none => p

theorem reverse_eq_iff_eq_append {name before after : Text} :
    name.reverse = after ++ '.' :: before ↔ name = before.reverse ++ '.' :: after.reverse := by
  rw [List.reverse_eq_iff]
  simp

theorem fileStem_isPrefix (name : Text) : fileStem name <+: name := by
  unfold fileStem
  split
  · rename_i after before hsplit
    split_ifs
    · exact List.prefix_rfl
    · rw [reverse_eq_iff_eq_append.1 (splitOnce_eq_some.1 hsplit).1]
      exact List.prefix_append _ _
  · exact List.prefix_rfl

theorem fileStem_ne_nil {name : Text} (h : name ≠ []) : fileStem name ≠ [] := by
  unfold fileStem
  split
  · split_ifs with hbefore
    · exact h
    · simpa using hbefore
  · exact h

/-- **A file name is its own stem** unless it has a dot behind its first character. -/
theorem fileStem_eq_self_iff (name : Text) : fileStem name = name ↔ '.' ∉ name.tail := by
  unfold fileStem
  split
  · rename_i after before hsplit
    obtain ⟨hrev, hafter⟩ := splitOnce_eq_some.1 hsplit
    have hname := reverse_eq_iff_eq_append.1 hrev
    split_ifs with hbefore
    · subst hbefore
      subst hname
      simpa using hafter
    · -- the name goes on behind the stem, and the dot is an inner one
      have hlen : before.reverse ≠ name := by
        intro heq
        have hlength := congrArg List.length (heq.trans hname)
        simp at hlength
      have hmem : '.' ∈ name.tail := by
        rw [hname, List.tail_append_of_ne_nil (by simpa using hbefore)]
        exact List.mem_append_right _ List.mem_cons_self
      exact ⟨fun heq => absurd heq hlen, fun hnot => absurd hmem hnot⟩
  · rename_i hsplit
    have hdot : '.' ∉ name := fun hmem => splitOnce_eq_none.1 hsplit (List.mem_reverse.2 hmem)
    exact ⟨fun _ hmem => hdot (List.mem_of_mem_tail hmem), fun _ => rfl⟩

theorem withExtension_eq {p name e : Text} (hname : fileName p = some name) (hext : e ≠ []) :
    withExtension p e = parent p ++ fileStem name ++ '.' :: e := by
  rw [withExtension, hname]
  dsimp only
  rw [if_neg hext]

/-- **Giving an extension appends it** exactly to the paths that end with their file name and
whose file name has no dot behind its first character. -/
theorem withExtension_eq_append_iff {p name e : Text} (hname : fileName p = some name)
    (hext : e ≠ []) :
    withExtension p e = p ++ '.' :: e ↔ name <:+ p ∧ '.' ∉ name.tail := by
  obtain ⟨hfile, hbody⟩ := fileName_eq_some hname
  rw [withExtension_eq hname hext, List.append_left_inj, ← fileStem_eq_self_iff]
  constructor
  · intro h
    -- the stem, the name and the path can only grow
    have hstem : fileStem name = name := by
      apply (fileStem_isPrefix name).eq_of_length_le
      have hlen := (body_isPrefix p).length_le
      have hstemLen := congrArg List.length h
      rw [← hbody, List.length_append] at hlen
      rw [List.length_append] at hstemLen
      omega
    rw [hstem] at h
    exact ⟨⟨parent p, h⟩, hstem⟩
  · rintro ⟨hsuffix, hstem⟩
    rw [hstem, hbody, body_eq_self hfile hsuffix]

/-! ### Where a path leads -/

/-- The components of a path, empty ones and `.` left out. -/
def components (p : Text) : List Text := (p.splitOn '/').filter fun w => w ≠ [] ∧ w ≠ ['.']

/-- Where a path leads: from the root or from the working directory, and along which
components. -/
def location (p : Text) : Bool × List Text := (p.head? == some '/', components p)

/-- **A file is in the directory its path names.** -/
theorem location_append {dir name : Text} (hdir : dir = [] ∨ ['/'] <:+ dir)
    (hname : IsFileName name) :
    location (dir ++ name) = ((location dir).1, (location dir).2 ++ [name]) := by
  have hsplit : name.splitOn '/' = [name] := List.splitOn_eq_singleton hname.slash_notMem
  have hkept : [name].filter (fun w => w ≠ [] ∧ w ≠ ['.']) = [name] := by
    simp [hname.ne_nil, hname.ne_dot]
  rcases hdir with rfl | ⟨dir, rfl⟩
  · have hhead : name.head? ≠ some '/' :=
      fun h => hname.slash_notMem (List.mem_of_mem_head? h)
    simp [location, components, hsplit, hname.ne_nil, hname.ne_dot, hhead]
  · have hhead : (dir ++ ['/'] ++ name).head? = (dir ++ ['/']).head? := by
      cases dir <;> rfl
    rw [location, location, hhead, components, components, List.append_assoc,
      List.singleton_append, List.splitOn_append_cons_self, List.splitOn_append_cons_self, hsplit,
      List.filter_append, hkept, List.filter_append]
    simp

/-- A stem with an extension is a file name. -/
theorem isFileName_append_extension {stem e : Text} (hstem : '/' ∉ stem) (hne : stem ≠ [])
    (hext : '/' ∉ e) (hne' : e ≠ []) : IsFileName (stem ++ '.' :: e) := by
  have hlen : 3 ≤ (stem ++ '.' :: e).length := by
    have hpos := List.length_pos_of_ne_nil hne
    have hpos' := List.length_pos_of_ne_nil hne'
    rw [List.length_append, List.length_cons]
    omega
  refine ⟨?_, ?_, ?_, ?_⟩
  · intro h
    rw [h] at hlen
    exact absurd hlen (by decide)
  · intro h
    rw [h] at hlen
    exact absurd hlen (by decide)
  · intro h
    rw [h] at hlen
    exact absurd hlen (by decide)
  · intro h
    rcases List.mem_append.1 h with h | h
    · exact hstem h
    · rcases List.mem_cons.1 h with h | h
      · exact absurd h (by decide)
      · exact hext h

/-- A stem and an extension without a dot can be told from their join. -/
theorem append_extension_inj {stem e stem' e' : Text} (hext : '.' ∉ e) (hext' : '.' ∉ e')
    (h : stem ++ '.' :: e = stem' ++ '.' :: e') : stem = stem' ∧ e = e' := by
  have hsplit : ∀ n e : Text, '.' ∉ e →
      splitOnce '.' (n ++ '.' :: e).reverse = some (e.reverse, n.reverse) := by
    intro n e he
    exact splitOnce_eq_some.2 ⟨by simp, fun hmem => he (List.mem_reverse.1 hmem)⟩
  have hpair := (hsplit stem e hext).symm.trans ((congrArg _ (congrArg _ h)).trans
    (hsplit stem' e' hext'))
  obtain ⟨he, hn⟩ := Prod.mk.inj (Option.some.inj hpair)
  exact ⟨List.reverse_inj.1 hn, List.reverse_inj.1 he⟩

/-- **Two paths with extensions lead to the same file** exactly when their directories lead to the
same place, their file stems agree and so do the extensions. -/
theorem location_withExtension_eq_iff {p q name name' e e' : Text}
    (hp : fileName p = some name) (hq : fileName q = some name') (hext : e ≠ [])
    (hext' : e' ≠ []) (hslash : '/' ∉ e) (hslash' : '/' ∉ e') (hdot : '.' ∉ e)
    (hdot' : '.' ∉ e') :
    location (withExtension p e) = location (withExtension q e') ↔
      location (parent p) = location (parent q) ∧ fileStem name = fileStem name' ∧
        e = e' := by
  have hloc : ∀ {p name e : Text}, fileName p = some name → e ≠ [] → '/' ∉ e →
      location (withExtension p e) =
        ((location (parent p)).1, (location (parent p)).2 ++ [fileStem name ++ '.' :: e]) := by
    intro p name e hname hne hslash
    obtain ⟨hfile, -⟩ := fileName_eq_some hname
    have hstem : '/' ∉ fileStem name :=
      fun h => hfile.slash_notMem ((fileStem_isPrefix name).subset h)
    rw [withExtension_eq hname hne, List.append_assoc, location_append (parent_eq_nil_or p)
      (isFileName_append_extension hstem (fileStem_ne_nil hfile.ne_nil) hslash hne)]
  rw [hloc hp hext hslash, hloc hq hext' hslash']
  constructor
  · intro h
    obtain ⟨habs, hcomponents⟩ := Prod.mk.inj h
    obtain ⟨hdir, hlast⟩ := List.append_inj' hcomponents rfl
    obtain ⟨hstem, rfl⟩ := append_extension_inj hdot hdot' (List.cons.inj hlast).1
    exact ⟨Prod.ext habs hdir, hstem, rfl⟩
  · rintro ⟨hdir, hstem, rfl⟩
    rw [hdir, hstem]

end UnixPath
