/-
**A small XML.**

Documents of elements with attributes, and white space but no text between the tags.  Attribute
values are quoted by `"`, and the five predefined entities stand for the reserved characters; a
reader turns the white space of a value into blanks.  A writer may lay out the tags of a document
with any white space between them and may write an element without content in either form; whatever
it does, the reader gets back the elements.

Main definitions:

* `Xml.Element`, `Xml.Tag` — elements, and the tags that spell them;
* `Xml.escape`, `Xml.decode` — values as they are written and read;
* `Xml.unescape` — the entities replaced by their characters, in one pass;
* `Xml.readTags`, `Xml.build`, `Xml.read` — the reader;
* `Xml.Spells`, `Xml.Lays`, `Xml.Writes` — balanced tags, a text of tags, a text of elements.

Main results:

* `Xml.decode_escape` — **a value is read back from its escaped form**;
* `Xml.unescape_escape`, `Xml.amp_escape` — the escape is undone in one pass, and writes an
  ampersand only to start an entity;
* `Xml.build_of_spells` — balanced tags are read as the elements they spell;
* `Xml.read_of_writes` — **a document is read as the element it was written from**.
-/

import Rnmap.Text

set_option relaxedAutoImplicit false
set_option autoImplicit false

namespace Xml

/-! ### Elements and tags -/

/-- Attributes in order: names and values. -/
abbrev Attrs := List (Text × Text)

/-- An element. -/
structure Element where
  name : Text
  attrs : Attrs
  children : List Element

/-- The value of an attribute. -/
def Element.attr (e : Element) (name : Text) : Option Text := e.attrs.lookup name

/-- The children of some name. -/
def Element.named (e : Element) (name : Text) : List Element :=
  e.children.filter fun child => child.name = name

/-- The tags of a document. -/
inductive Tag
  | opening (name : Text) (attrs : Attrs)
  | closing (name : Text)
  | empty (name : Text) (attrs : Attrs)

/-! ### Values -/

/-- A character as it is written in a value. -/
def escapeChar (c : Char) : Text :=
  if c = '&' then "&amp;".toList
  else if c = '<' then "&lt;".toList
  else if c = '>' then "&gt;".toList
  else if c = '"' then "&quot;".toList
  else if c = '\'' then "&apos;".toList
  else [c]

/-- A value as it is written. -/
def escape (s : Text) : Text := s.flatMap escapeChar

/-- White space between tags. -/
def isSpace (c : Char) : Bool := c == ' ' || c == '\t' || c == '\n' || c == '\r'

/-- A character of a value as it is read. -/
def normalise (c : Char) : Char := if isSpace c then ' ' else c

/-- A value as it is read: the predefined entities are replaced, in one pass, and no other
ampersand and no `<` is accepted. -/
def decode : Text → Option Text
  | [] => some []
  | '&' :: 'a' :: 'm' :: 'p' :: ';' :: s => (decode s).map ('&' :: ·)
  | '&' :: 'l' :: 't' :: ';' :: s => (decode s).map ('<' :: ·)
  | '&' :: 'g' :: 't' :: ';' :: s => (decode s).map ('>' :: ·)
  | '&' :: 'q' :: 'u' :: 'o' :: 't' :: ';' :: s => (decode s).map ('"' :: ·)
  | '&' :: 'a' :: 'p' :: 'o' :: 's' :: ';' :: s => (decode s).map ('\'' :: ·)
  | c :: s => if c = '&' ∨ c = '<' then none else (decode s).map (normalise c :: ·)

theorem escape_cons (c : Char) (s : Text) : escape (c :: s) = escapeChar c ++ escape s := rfl

/-- A value the reader does not change: tabs and line ends become blanks. -/
def Plain (s : Text) : Prop := ∀ c ∈ s, normalise c = c

theorem decode_escapeChar {c : Char} (hc : normalise c = c) (s : Text) :
    decode (escapeChar c ++ s) = (decode s).map (c :: ·) := by
  unfold escapeChar
  split_ifs with hamp hlt hgt hquot hapos
  · subst hamp
    rfl
  · subst hlt
    rfl
  · subst hgt
    rfl
  · subst hquot
    rfl
  · subst hapos
    rfl
  · rw [List.singleton_append, decode.eq_def]
    split
    case h_7 c' s' _ _ _ _ _ heq =>
      obtain ⟨rfl, rfl⟩ := List.cons.inj heq
      rw [if_neg (not_or.2 ⟨hamp, hlt⟩), hc]
    case h_1 heq => cases heq
    all_goals
      rename_i heq
      exact absurd (List.cons.inj heq).1 hamp

/-- **A value is read back from its escaped form.** -/
theorem decode_escape {s : Text} (h : Plain s) : decode (escape s) = some s := by
  induction s with
  | nil => rfl
  | cons c s ih =>
      obtain ⟨hc, hs⟩ := List.forall_mem_cons.1 h
      rw [escape_cons, decode_escapeChar hc, ih hs]
      rfl

/-- The predefined entities. -/
def entities : List Text :=
  ["&amp;".toList, "&lt;".toList, "&gt;".toList, "&quot;".toList, "&apos;".toList]

/-- A character is written as an entity or, if it is not reserved, as itself. -/
theorem escapeChar_mem (c : Char) :
    escapeChar c ∈ entities ∨ escapeChar c = [c] ∧ c ∉ "&<>\"'".toList := by
  unfold escapeChar
  split_ifs with hamp hlt hgt hquot hapos
  · exact .inl (by simp [entities])
  · exact .inl (by simp [entities])
  · exact .inl (by simp [entities])
  · exact .inl (by simp [entities])
  · exact .inl (by simp [entities])
  · exact .inr ⟨rfl, by simp [hamp, hlt, hgt, hquot, hapos]⟩

/-- The reserved characters other than the ampersand do not occur in an escaped value. -/
theorem reserved_notMem_escape {d : Char} (hd : d ∈ "<>\"'".toList) (s : Text) : d ∉ escape s := by
  intro hmem
  obtain ⟨c, -, hc⟩ := List.mem_flatMap.1 hmem
  have hentities : ∀ e ∈ entities, ∀ d ∈ "<>\"'".toList, d ∉ e := by decide
  rcases escapeChar_mem c with hentity | ⟨hself, hplain⟩
  · exact hentities _ hentity d hd hc
  · rw [hself] at hc
    obtain rfl := List.mem_singleton.1 hc
    exact hplain (List.mem_cons_of_mem _ hd)

/-- A value without reserved characters is written as it is. -/
theorem escape_eq_self {s : Text} (h : ∀ c ∈ s, c ∉ "&<>\"'".toList) : escape s = s := by
  induction s with
  | nil => rfl
  | cons c s ih =>
      obtain ⟨hc, hs⟩ := List.forall_mem_cons.1 h
      simp only [String.reduceToList, List.mem_cons, List.not_mem_nil, or_false, not_or] at hc
      rw [escape_cons, ih hs, escapeChar, if_neg hc.1, if_neg hc.2.1, if_neg hc.2.2.1,
        if_neg hc.2.2.2.1, if_neg hc.2.2.2.2, List.singleton_append]

/-! ### Undoing the escape -/

/-- Replace each predefined entity by its character, in one pass from the left; whatever is not an
entity stays as it is. -/
def unescape : Text → Text
  | [] => []
  | '&' :: 'a' :: 'm' :: 'p' :: ';' :: s => '&' :: unescape s
  | '&' :: 'l' :: 't' :: ';' :: s => '<' :: unescape s
  | '&' :: 'g' :: 't' :: ';' :: s => '>' :: unescape s
  | '&' :: 'q' :: 'u' :: 'o' :: 't' :: ';' :: s => '"' :: unescape s
  | '&' :: 'a' :: 'p' :: 'o' :: 's' :: ';' :: s => '\'' :: unescape s
  | c :: s => c :: unescape s

theorem unescape_cons {c : Char} (hc : c ≠ '&') (s : Text) :
    unescape (c :: s) = c :: unescape s := by
  rw [unescape.eq_def]
  split
  case h_7 heq =>
    obtain ⟨rfl, rfl⟩ := List.cons.inj heq
    rfl
  case h_1 heq => cases heq
  all_goals
    rename_i heq
    exact absurd (List.cons.inj heq).1 hc

theorem unescape_escapeChar (c : Char) (s : Text) :
    unescape (escapeChar c ++ s) = c :: unescape s := by
  unfold escapeChar
  split_ifs with hamp hlt hgt hquot hapos
  · subst hamp
    rfl
  · subst hlt
    rfl
  · subst hgt
    rfl
  · subst hquot
    rfl
  · subst hapos
    rfl
  · exact unescape_cons hamp s

/-- **The escape is undone in one pass**, whatever the value: an entity the value itself spells
comes back as it was. -/
theorem unescape_escape (s : Text) : unescape (escape s) = s := by
  induction s with
  | nil => rfl
  | cons c s ih => rw [escape_cons, unescape_escapeChar, ih]

theorem escape_injective : Function.Injective escape :=
  Function.LeftInverse.injective unescape_escape

/-- An ampersand stands in front of what a character is written as, and then it is an entity. -/
theorem escapeChar_amp {c : Char} {pre post : Text} (h : escapeChar c = pre ++ '&' :: post) :
    pre = [] ∧ escapeChar c ∈ entities := by
  rcases escapeChar_mem c with hmem | ⟨hself, hplain⟩
  · refine ⟨?_, hmem⟩
    have htail : ∀ e ∈ entities, '&' ∉ e.tail := by decide
    cases pre with
    | nil => rfl
    | cons p pre =>
        refine absurd ?_ (htail _ hmem)
        rw [h, List.cons_append, List.tail_cons]
        exact List.mem_append_right _ List.mem_cons_self
  · rw [hself] at h
    have hmem : '&' ∈ [c] := h ▸ List.mem_append_right _ List.mem_cons_self
    obtain rfl := List.mem_singleton.1 hmem
    exact absurd List.mem_cons_self hplain

/-- **Every ampersand of an escaped value starts an entity.** -/
theorem amp_escape (s : Text) : ∀ pre post : Text, escape s = pre ++ '&' :: post →
    ∃ e ∈ entities, e <+: '&' :: post := by
  induction s with
  | nil =>
      intro pre post h
      simp [escape] at h
  | cons c s ih =>
      intro pre post h
      rw [escape_cons] at h
      rcases List.append_eq_append_iff.1 h with ⟨pre', -, hpre'⟩ | ⟨rest, hchar, hpost⟩
      · exact ih pre' post hpre'
      · cases rest with
        | nil => exact ih [] post hpost.symm
        | cons a rest =>
            -- the ampersand is one that the escaping of `c` has written
            obtain ⟨rfl, -⟩ := List.cons.inj hpost
            obtain ⟨rfl, hmem⟩ := escapeChar_amp hchar
            refine ⟨escapeChar c, hmem, escape s, ?_⟩
            rw [hchar, hpost]
            rfl

/-! ### The reader -/

/-- A character of a name. -/
def isNameChar (c : Char) : Bool := !isSpace c && !"<>&\"'=/".toList.contains c

/-- An attribute: a name and a quoted value. -/
def readAttr (s : Text) : Option ((Text × Text) × Text) :=
  match s.dropWhile isNameChar with
  | '=' :: '"' :: t =>
      match t.dropWhile (· != '"') with
      | '"' :: rest =>
          if s.takeWhile isNameChar = [] then none
          else (decode (t.takeWhile (· != '"'))).map fun v => ((s.takeWhile isNameChar, v), rest)
      | _ => none
  | _ => none

/-- The attributes of a tag, each after white space, up to the end of the tag; at most `fuel` of
them. -/
def readAttrs : ℕ → Text → Option (Attrs × Text)
  | 0, _ => none
  | fuel + 1, s =>
      if (s.dropWhile isSpace).head?.any fun c => c == '>' || c == '/' then
        some ([], s.dropWhile isSpace)
      else if s.head?.any isSpace then do
        let (a, rest) ← readAttr (s.dropWhile isSpace)
        let (attrs, rest) ← readAttrs fuel rest
        some (a :: attrs, rest)
      else none

/-- A closing tag after its `</`. -/
def readClosing (s : Text) : Option (Tag × Text) :=
  match s.dropWhile isNameChar with
  | '>' :: rest =>
      if s.takeWhile isNameChar = [] then none
      else some (.closing (s.takeWhile isNameChar), rest)
  | _ => none

/-- The end of a tag that is not a closing one. -/
def readTagEnd (name : Text) (attrs : Attrs) : Text → Option (Tag × Text)
  | '>' :: rest => some (.opening name attrs, rest)
  | '/' :: '>' :: rest => some (.empty name attrs, rest)
  | _ => none

/-- Any other tag after its `<`; no two attributes have one name. -/
def readStart (s : Text) : Option (Tag × Text) := do
  let (attrs, rest) ← readAttrs s.length (s.dropWhile isNameChar)
  if s.takeWhile isNameChar = [] ∨ ¬ (attrs.map Prod.fst).Nodup then none
  else readTagEnd (s.takeWhile isNameChar) attrs rest

/-- A tag after its `<`. -/
def readTag (s : Text) : Option (Tag × Text) :=
  if s.head? = some '/' then readClosing s.tail else readStart s

/-- The tags of a text, which has white space between them; at most `fuel` of them. -/
def readTags : ℕ → Text → Option (List Tag)
  | 0, _ => none
  | fuel + 1, s =>
      match s.dropWhile isSpace with
      | [] => some []
      | '<' :: t => do
          let (tag, rest) ← readTag t
          let tags ← readTags fuel rest
          some (tag :: tags)
      | _ => none

/-- The elements balanced tags spell.  The stack has the open elements, the innermost first, each
with its earlier siblings; `done` are the children of the innermost so far. -/
def build : List (Text × Attrs × List Element) → List Element → List Tag → Option (List Element)
  | [], done, [] => some done
  | _ :: _, _, [] => none
  | stack, done, .opening name attrs :: tags => build ((name, attrs, done) :: stack) [] tags
  | stack, done, .empty name attrs :: tags => build stack (done ++ [⟨name, attrs, []⟩]) tags
  | [], _, .closing _ :: _ => none
  | (name', attrs, before) :: stack, done, .closing name :: tags =>
      if name' = name then build stack (before ++ [⟨name', attrs, done⟩]) tags else none

/-- The text after the declaration. -/
def afterDeclaration : Text → Option Text
  | '?' :: '>' :: s => some s
  | _ :: s => afterDeclaration s
  | [] => none

/-- The element of a document. -/
def read (s : Text) : Option Element :=
  match if "<?xml".toList.isPrefixOf s then afterDeclaration s else some s with
  | some body =>
      match readTags (body.length + 1) body with
      | some tags =>
          match build [] [] tags with
          | some [e] => some e
          | _ => none
      | none => none
  | none => none

/-! ### Writing -/

/-- An attribute as it is written. -/
def attrText (a : Text × Text) : Text := ' ' :: (a.1 ++ ('=' :: '"' :: (escape a.2 ++ ['"'])))

/-- A tag as it is written. -/
def Tag.text : Tag → Text
  | .opening name attrs => '<' :: (name ++ (attrs.flatMap attrText ++ ['>']))
  | .closing name => '<' :: '/' :: (name ++ ['>'])
  | .empty name attrs => '<' :: (name ++ (attrs.flatMap attrText ++ ['/', '>']))

/-- A name. -/
def IsName (s : Text) : Prop := s ≠ [] ∧ ∀ c ∈ s, isNameChar c = true

instance (s : Text) : Decidable (IsName s) :=
  have := List.decidableBAll (fun c => isNameChar c = true) s
  inferInstanceAs (Decidable (s ≠ [] ∧ ∀ c ∈ s, isNameChar c = true))

/-- Attributes that can be read back: names, all different, and plain values. -/
structure WellFormed (attrs : Attrs) : Prop where
  names : ∀ a ∈ attrs, IsName a.1
  nodup : (attrs.map Prod.fst).Nodup
  plain : ∀ a ∈ attrs, Plain a.2

/-- A tag that can be read back. -/
def Tag.WellFormed : Tag → Prop
  | .opening name attrs => IsName name ∧ Xml.WellFormed attrs
  | .closing name => IsName name
  | .empty name attrs => IsName name ∧ Xml.WellFormed attrs

/-! ### Reading what was written -/

/-- A run of a class in front of a character that is not in it. -/
theorem takeWhile_append_cons {p : Char → Bool} {s : Text} (hs : ∀ c ∈ s, p c = true) {c : Char}
    (hc : p c = false) (t : Text) : (s ++ c :: t).takeWhile p = s := by
  rw [List.takeWhile_append_of_pos hs, List.takeWhile_cons_of_neg (by simp [hc]),
    List.append_nil]

theorem dropWhile_append_cons {p : Char → Bool} {s : Text} (hs : ∀ c ∈ s, p c = true) {c : Char}
    (hc : p c = false) (t : Text) : (s ++ c :: t).dropWhile p = c :: t := by
  rw [List.dropWhile_append_of_pos hs, List.dropWhile_cons_of_neg (by simp [hc])]

theorem readAttr_attrText {name value : Text} (hname : IsName name) (hvalue : Plain value)
    (s : Text) :
    readAttr (name ++ ('=' :: '"' :: (escape value ++ ('"' :: s)))) = some ((name, value), s) := by
  have heq : isNameChar '=' = false := by decide
  have hquot : ('"' != '"') = false := by decide
  have hraw : ∀ c ∈ escape value, (c != '"') = true := by
    intro c hc
    refine bne_iff_ne.2 ?_
    rintro rfl
    exact reserved_notMem_escape (by decide) value hc
  simp only [readAttr, dropWhile_append_cons hname.2 heq, takeWhile_append_cons hname.2 heq,
    dropWhile_append_cons hraw hquot, takeWhile_append_cons hraw hquot]
  rw [if_neg hname.1, decode_escape hvalue]
  rfl

/-- A name begins with a character that ends neither white space nor a tag. -/
theorem IsName.head {name : Text} (h : IsName name) :
    ∃ c t, name = c :: t ∧ isSpace c = false ∧ c ≠ '>' ∧ c ≠ '/' := by
  obtain ⟨c, t, rfl⟩ := List.exists_cons_of_ne_nil h.1
  have hc : isNameChar c = true := h.2 c List.mem_cons_self
  refine ⟨c, t, rfl, ?_, ?_, ?_⟩
  · exact Bool.not_eq_true' _ ▸ (Bool.and_eq_true_iff.1 hc).1
  · rintro rfl
    exact absurd hc (by decide)
  · rintro rfl
    exact absurd hc (by decide)

/-- Attributes are read back, up to the end of the tag. -/
theorem readAttrs_flatMap {attrs : Attrs} (hnames : ∀ a ∈ attrs, IsName a.1)
    (hplain : ∀ a ∈ attrs, Plain a.2) {fuel : ℕ} (hfuel : attrs.length < fuel) {c : Char}
    (hc : c = '>' ∨ c = '/') (s : Text) :
    readAttrs fuel (attrs.flatMap attrText ++ c :: s) = some (attrs, c :: s) := by
  induction attrs generalizing fuel with
  | nil =>
      obtain ⟨fuel, rfl⟩ : ∃ k, fuel = k + 1 := ⟨fuel - 1, by omega⟩
      rcases hc with rfl | rfl
      · rfl
      · rfl
  | cons a attrs ih =>
      obtain ⟨fuel, rfl⟩ : ∃ k, fuel = k + 1 := ⟨fuel - 1, by omega⟩
      obtain ⟨name, value⟩ := a
      obtain ⟨hname, hnames'⟩ := List.forall_mem_cons.1 hnames
      obtain ⟨hvalue, hplain'⟩ := List.forall_mem_cons.1 hplain
      rw [List.length_cons] at hfuel
      have hread := readAttr_attrText hname hvalue (attrs.flatMap attrText ++ c :: s)
      have htext : ((name, value) :: attrs).flatMap attrText ++ c :: s =
          ' ' :: (name ++ ('=' :: '"' :: (escape value ++
            ('"' :: (attrs.flatMap attrText ++ c :: s))))) := by
        simp [attrText]
      obtain ⟨d, t, rfl, hspace, hgt, hslash⟩ := hname.head
      rw [htext, readAttrs]
      simp only [List.dropWhile_cons, (by decide : isSpace ' ' = true), if_true, List.cons_append,
        hspace, Bool.false_eq_true, if_false, List.head?_cons, Option.any_some, beq_iff_eq,
        Bool.or_eq_true, hgt, hslash, or_self]
      rw [← List.cons_append, hread]
      simp only [Option.bind_eq_bind, Option.bind_some]
      rw [ih hnames' hplain' (by omega)]
      rfl

/-- The attributes of a tag take more characters than there are. -/
theorem length_le_flatMap_attrText (attrs : Attrs) :
    attrs.length ≤ (attrs.flatMap attrText).length := by
  induction attrs with
  | nil => exact Nat.le_refl _
  | cons a attrs ih =>
      rw [List.flatMap_cons, List.length_append, List.length_cons, attrText, List.length_cons]
      omega

theorem readStart_text {name : Text} {attrs : Attrs} (hname : IsName name)
    (hattrs : WellFormed attrs) {c : Char} (hc : c = '>' ∨ c = '/') (s : Text) :
    readStart (name ++ (attrs.flatMap attrText ++ c :: s)) = readTagEnd name attrs (c :: s) := by
  -- behind the name comes the blank before the first attribute, or the end of the tag
  obtain ⟨d, t, hdt, hd⟩ : ∃ d t, attrs.flatMap attrText ++ c :: s = d :: t ∧
      isNameChar d = false := by
    cases attrs with
    | nil =>
        refine ⟨c, s, rfl, ?_⟩
        rcases hc with rfl | rfl
        · decide
        · decide
    | cons a attrs => exact ⟨' ', _, rfl, by decide⟩
  have hlen : attrs.length < (name ++ (attrs.flatMap attrText ++ c :: s)).length := by
    have := length_le_flatMap_attrText attrs
    rw [List.length_append, List.length_append, List.length_cons]
    omega
  have hdrop : (name ++ (attrs.flatMap attrText ++ c :: s)).dropWhile isNameChar =
      attrs.flatMap attrText ++ c :: s := by
    rw [hdt]
    exact dropWhile_append_cons hname.2 hd t
  have htake : (name ++ (attrs.flatMap attrText ++ c :: s)).takeWhile isNameChar = name := by
    rw [hdt]
    exact takeWhile_append_cons hname.2 hd t
  have hgood : ¬ (name = [] ∨ ¬ (attrs.map Prod.fst).Nodup) :=
    not_or.2 ⟨hname.1, not_not.2 hattrs.nodup⟩
  rw [readStart, hdrop, htake, readAttrs_flatMap hattrs.names hattrs.plain hlen hc]
  simp only [Option.bind_eq_bind, Option.bind_some]
  rw [if_neg hgood]

/-- A tag is read back after its `<`. -/
theorem readTag_text {tag : Tag} (h : tag.WellFormed) (s : Text) :
    ∃ t, tag.text ++ s = '<' :: t ∧ readTag t = some (tag, s) := by
  have hslash : ∀ {name : Text} (t : Text), IsName name → (name ++ t).head? ≠ some '/' := by
    intro name t hname
    obtain ⟨c, u, rfl, -, -, hc⟩ := hname.head
    exact fun heq => hc (Option.some.inj heq)
  cases tag with
  | opening name attrs =>
      obtain ⟨hname, hattrs⟩ := h
      refine ⟨name ++ (attrs.flatMap attrText ++ '>' :: s), by simp [Tag.text], ?_⟩
      rw [readTag, if_neg (hslash _ hname), readStart_text hname hattrs (.inl rfl)]
      rfl
  | closing name =>
      have hgt : isNameChar '>' = false := by decide
      refine ⟨'/' :: (name ++ '>' :: s), by simp [Tag.text], ?_⟩
      rw [readTag, List.head?_cons, if_pos rfl, List.tail_cons, readClosing]
      simp only [dropWhile_append_cons h.2 hgt, takeWhile_append_cons h.2 hgt]
      rw [if_neg h.1]
  | empty name attrs =>
      obtain ⟨hname, hattrs⟩ := h
      refine ⟨name ++ (attrs.flatMap attrText ++ '/' :: '>' :: s), by simp [Tag.text], ?_⟩
      rw [readTag, if_neg (hslash _ hname), readStart_text hname hattrs (.inr rfl)]
      rfl

/-! ### Layouts -/

/-- White space. -/
def Blank (s : Text) : Prop := ∀ c ∈ s, isSpace c = true

instance (s : Text) : Decidable (Blank s) :=
  List.decidableBAll (fun c => isSpace c = true) s

theorem blank_lf : Blank ['\n'] := by decide

/-- A text of tags with white space between them. -/
inductive Lays : Text → List Tag → Prop
  | blank {s : Text} : Blank s → Lays s []
  | tag {s t : Text} {tag : Tag} {tags : List Tag} : Blank s → Lays t tags →
      Lays (s ++ (tag.text ++ t)) (tag :: tags)

/-- Texts of tags one after the other. -/
theorem Lays.append {s t : Text} {tags tags' : List Tag} (h : Lays s tags) (h' : Lays t tags') :
    Lays (s ++ t) (tags ++ tags') := by
  induction h with
  | @blank s hs =>
      cases h' with
      | blank ht => exact .blank (List.forall_mem_append.2 ⟨hs, ht⟩)
      | tag ht htags =>
          rw [← List.append_assoc]
          exact .tag (List.forall_mem_append.2 ⟨hs, ht⟩) htags
  | tag hs _ ih =>
      rw [List.append_assoc, List.append_assoc]
      exact .tag hs ih

/-- The tags of a text are read back. -/
theorem readTags_of_lays {s : Text} {tags : List Tag} (h : Lays s tags)
    (hgood : ∀ tag ∈ tags, tag.WellFormed) {fuel : ℕ} (hfuel : s.length < fuel) :
    readTags fuel s = some tags := by
  induction h generalizing fuel with
  | @blank s hs =>
      obtain ⟨fuel, rfl⟩ : ∃ k, fuel = k + 1 := ⟨fuel - 1, by omega⟩
      rw [readTags, List.dropWhile_eq_nil_iff.2 hs]
  | @tag s t tag tags hs _ ih =>
      obtain ⟨htag, htags⟩ := List.forall_mem_cons.1 hgood
      obtain ⟨fuel, rfl⟩ : ∃ k, fuel = k + 1 := ⟨fuel - 1, by omega⟩
      obtain ⟨u, htext, hread⟩ := readTag_text htag t
      have hlen := congrArg List.length htext
      rw [List.length_append, htext, List.length_cons] at hfuel
      rw [List.length_append, List.length_cons] at hlen
      have hpos : 0 < tag.text.length := by cases tag <;> exact Nat.succ_pos _
      rw [readTags, htext, dropWhile_append_cons hs (by decide)]
      simp only [hread, Option.bind_eq_bind, Option.bind_some]
      rw [ih htags (by omega)]
      rfl

/-! ### Balanced tags -/

/-- **Balanced tags** and the elements they spell; an element without content has two forms. -/
inductive Spells : List Tag → List Element → Prop
  | nil : Spells [] []
  | empty {name : Text} {attrs : Attrs} {tags : List Tag} {es : List Element} :
      Spells tags es → Spells (.empty name attrs :: tags) (⟨name, attrs, []⟩ :: es)
  | node {name : Text} {attrs : Attrs} {inner tags : List Tag} {children es : List Element} :
      Spells inner children → Spells tags es →
      Spells (.opening name attrs :: (inner ++ .closing name :: tags))
        (⟨name, attrs, children⟩ :: es)

theorem Spells.append {tags tags' : List Tag} {es es' : List Element} (h : Spells tags es)
    (h' : Spells tags' es') : Spells (tags ++ tags') (es ++ es') := by
  induction h with
  | nil => exact h'
  | empty _ ih => exact .empty ih
  | node hinner _ _ ih =>
      rw [List.cons_append, List.append_assoc]
      exact .node hinner ih

/-- **Balanced tags are read as the elements they spell.** -/
theorem build_of_spells {tags : List Tag} {es : List Element} (h : Spells tags es)
    (stack : List (Text × Attrs × List Element)) (done : List Element) (rest : List Tag) :
    build stack done (tags ++ rest) = build stack (done ++ es) rest := by
  induction h generalizing stack done rest with
  | nil => rw [List.nil_append, List.append_nil]
  | @empty name attrs tags es _ ih =>
      rw [List.cons_append, build, ih, List.append_assoc]
      rfl
  | @node name attrs inner tags children es _ _ ihinner ih =>
      rw [List.cons_append, List.append_assoc, build, ihinner, List.nil_append, List.cons_append,
        build, if_pos rfl, ih, List.append_assoc]
      rfl

/-! ### Texts of elements -/

/-- A text that writes some elements. -/
def Writes (s : Text) (es : List Element) : Prop := ∃ tags, Lays s tags ∧ Spells tags es

theorem Writes.blank {s : Text} (h : Blank s) : Writes s [] := ⟨[], .blank h, .nil⟩

theorem Writes.append {s t : Text} {es es' : List Element} (h : Writes s es) (h' : Writes t es') :
    Writes (s ++ t) (es ++ es') := by
  obtain ⟨tags, hlays, hspells⟩ := h
  obtain ⟨tags', hlays', hspells'⟩ := h'
  exact ⟨tags ++ tags', hlays.append hlays', hspells.append hspells'⟩

theorem Writes.flatMap {α : Type} {xs : List α} {f : α → Text} {g : α → List Element}
    (h : ∀ x ∈ xs, Writes (f x) (g x)) : Writes (xs.flatMap f) (xs.flatMap g) := by
  induction xs with
  | nil => exact .blank fun _ hc => nomatch hc
  | cons x xs ih =>
      obtain ⟨hx, hxs⟩ := List.forall_mem_cons.1 h
      exact hx.append (ih hxs)

/-- A tag of its own, after white space. -/
theorem Lays.single {s : Text} (tag : Tag) (hs : Blank s) : Lays (s ++ tag.text) [tag] := by
  have h : Lays (s ++ (tag.text ++ [])) [tag] := .tag hs (.blank (by decide))
  rwa [List.append_nil] at h

/-- An element without content as one tag. -/
theorem Writes.empty {s : Text} (name : Text) (attrs : Attrs) (hs : Blank s) :
    Writes (s ++ (Tag.empty name attrs).text) [⟨name, attrs, []⟩] :=
  ⟨[.empty name attrs], .single _ hs, .empty .nil⟩

/-- An element around what some text writes. -/
theorem Writes.node {s t u : Text} (name : Text) (attrs : Attrs) {children : List Element}
    (hs : Blank s) (hu : Blank u) (h : Writes t children) :
    Writes (s ++ (Tag.opening name attrs).text ++ t ++ (u ++ (Tag.closing name).text))
      [⟨name, attrs, children⟩] := by
  obtain ⟨tags, hlays, hspells⟩ := h
  refine ⟨[.opening name attrs] ++ tags ++ [.closing name], ?_, .node hspells .nil⟩
  exact ((Lays.single _ hs).append hlays).append (.single _ hu)

/-- An element that can be read back. -/
inductive Element.Readable : Element → Prop
  | mk {name : Text} {attrs : Attrs} {children : List Element} : IsName name → WellFormed attrs →
      (∀ e ∈ children, e.Readable) → Element.Readable ⟨name, attrs, children⟩

/-- The tags of elements that can be read back. -/
theorem wellFormed_of_spells {tags : List Tag} {es : List Element} (h : Spells tags es)
    (hes : ∀ e ∈ es, e.Readable) : ∀ tag ∈ tags, tag.WellFormed := by
  induction h with
  | nil => exact fun _ htag => absurd htag List.not_mem_nil
  | empty _ ih =>
      obtain ⟨hhead, htail⟩ := List.forall_mem_cons.1 hes
      obtain ⟨hname, hattrs, -⟩ := hhead
      exact List.forall_mem_cons.2 ⟨⟨hname, hattrs⟩, ih htail⟩
  | node _ _ ihinner ih =>
      obtain ⟨hhead, htail⟩ := List.forall_mem_cons.1 hes
      obtain ⟨hname, hattrs, hchildren⟩ := hhead
      refine List.forall_mem_cons.2 ⟨⟨hname, hattrs⟩, ?_⟩
      exact List.forall_mem_append.2 ⟨ihinner hchildren, List.forall_mem_cons.2 ⟨hname, ih htail⟩⟩

/-- **A document is read as the element it was written from**, behind a declaration. -/
theorem read_of_writes {decl s : Text} {e : Element}
    (hdecl : ∀ t, afterDeclaration (decl ++ t) = some t) (hstart : "<?xml".toList <+: decl)
    (h : Writes s [e]) (he : e.Readable) : read (decl ++ s) = some e := by
  obtain ⟨tags, hlays, hspells⟩ := h
  have hgood := wellFormed_of_spells hspells (List.forall_mem_singleton.2 he)
  have hprefix : "<?xml".toList.isPrefixOf (decl ++ s) = true :=
    List.isPrefixOf_iff_prefix.2 (hstart.trans (List.prefix_append _ _))
  have hbuild := build_of_spells hspells [] [] []
  rw [List.append_nil, List.nil_append] at hbuild
  rw [read, hprefix, if_pos rfl, hdecl]
  simp only [readTags_of_lays hlays hgood (Nat.lt_succ_self _), hbuild, build]

end Xml
