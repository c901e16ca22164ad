/-
**JSON as text.**

Values with their pretty-printed text, two blanks to a level, and a reader of JSON texts.  The
reader works in two passes, each a machine that takes one item at a time: the first makes tokens of
the characters, the second makes a value of the tokens and holds the containers that are still open
in a stack.  A number is kept as it is written.

Main definitions:

* `JsonText.Numeral`, `JsonText.Value` — numbers as they are written, and values;
* `JsonText.escape`, `JsonText.pretty` — strings and values as they are written;
* `JsonText.lexStep`, `JsonText.lex` — the machine that makes tokens;
* `JsonText.parseStep`, `JsonText.parse` — the machine that makes a value;
* `JsonText.read` — the reader.

Main results:

* `JsonText.lex_escape` — **a string is read back from its escaped form**;
* `JsonText.lexes_pretty` — the tokens of a value are those of its text;
* `JsonText.parse_tokens` — a value is parsed from its tokens;
* `JsonText.read_pretty` — **a value is read back from its text**.
-/

import Rnmap.Text

set_option relaxedAutoImplicit false
set_option autoImplicit false

namespace JsonText

/-! ### Numbers -/

/-- One digit at least, and behind the digits what `rest` accepts. -/
def digitsThen (rest : Text → Bool) (s : Text) : Bool :=
  !(s.takeWhile Char.isDigit).isEmpty && rest (s.dropWhile Char.isDigit)

/-- The text behind a sign, if there is one. -/
def dropSign : Text → Text
  | '+' :: s => s
  | '-' :: s => s
  | s => s

/-- An exponent, or nothing. -/
def isExponent : Text → Bool
  | [] => true
  | c :: s => (c == 'e' || c == 'E') && digitsThen List.isEmpty (dropSign s)

/-- A fraction, if there is one, and an exponent. -/
def isFraction : Text → Bool
  | '.' :: s => digitsThen isExponent s
  | s => isExponent s

/-- A number without a sign; it has no leading zeros. -/
def isUnsigned : Text → Bool
  | '0' :: s => isFraction s
  | s => digitsThen isFraction s

/-- The numbers of JSON. -/
def isNumeral : Text → Bool
  | '-' :: s => isUnsigned s
  | s => isUnsigned s

/-- A number, as it is written. -/
structure Numeral where
  text : Text
  valid : isNumeral text = true
  deriving DecidableEq

/-- The characters of numbers. -/
def isNumeralChar (c : Char) : Bool :=
  c.isDigit || c == '+' || c == '-' || c == '.' || c == 'e' || c == 'E'

theorem isNumeralChar_of_digitsThen {rest : Text → Bool} {s : Text}
    (hrest : ∀ t, rest t = true → ∀ c ∈ t, isNumeralChar c = true)
    (h : digitsThen rest s = true) : ∀ c ∈ s, isNumeralChar c = true := by
  intro c hc
  rw [digitsThen, Bool.and_eq_true] at h
  rw [← List.takeWhile_append_dropWhile (p := Char.isDigit) (l := s)] at hc
  rcases List.mem_append.1 hc with hdigit | hbehind
  · simp [isNumeralChar, List.mem_takeWhile_imp hdigit]
  · exact hrest _ h.2 c hbehind

theorem isNumeralChar_of_isExponent {s : Text} (h : isExponent s = true) :
    ∀ c ∈ s, isNumeralChar c = true := by
  cases s with
  | nil => exact fun c hc => absurd hc List.not_mem_nil
  | cons e s =>
      rw [isExponent, Bool.and_eq_true] at h
      have he : isNumeralChar e = true := by
        rcases Bool.or_eq_true_iff.1 h.1 with he | he <;> simp [isNumeralChar, beq_iff_eq.1 he]
      have hdigits : ∀ c ∈ dropSign s, isNumeralChar c = true :=
        isNumeralChar_of_digitsThen (fun t ht => by simp [List.isEmpty_iff.1 ht]) h.2
      refine List.forall_mem_cons.2 ⟨he, ?_⟩
      unfold dropSign at hdigits
      split at hdigits
      · exact List.forall_mem_cons.2 ⟨by decide, hdigits⟩
      · exact List.forall_mem_cons.2 ⟨by decide, hdigits⟩
      · exact hdigits

theorem isNumeralChar_of_isFraction {s : Text} (h : isFraction s = true) :
    ∀ c ∈ s, isNumeralChar c = true := by
  unfold isFraction at h
  split at h
  · exact List.forall_mem_cons.2
      ⟨by decide, isNumeralChar_of_digitsThen (fun _ => isNumeralChar_of_isExponent) h⟩
  · exact isNumeralChar_of_isExponent h

theorem isNumeralChar_of_isUnsigned {s : Text} (h : isUnsigned s = true) :
    ∀ c ∈ s, isNumeralChar c = true := by
  unfold isUnsigned at h
  split at h
  · exact List.forall_mem_cons.2 ⟨by decide, isNumeralChar_of_isFraction h⟩
  · exact isNumeralChar_of_digitsThen (fun _ => isNumeralChar_of_isFraction) h

/-- A number consists of the characters of numbers. -/
theorem isNumeralChar_of_isNumeral {s : Text} (h : isNumeral s = true) :
    ∀ c ∈ s, isNumeralChar c = true := by
  unfold isNumeral at h
  split at h
  · exact List.forall_mem_cons.2 ⟨by decide, isNumeralChar_of_isUnsigned h⟩
  · exact isNumeralChar_of_isUnsigned h

theorem Numeral.ne_nil (n : Numeral) : n.text ≠ [] := by
  intro hnil
  have hvalid := n.valid
  rw [hnil] at hvalid
  cases hvalid

/-! ### Values -/

/-- A value. -/
inductive Value
  | null
  | bool (b : Bool)
  | num (n : Numeral)
  | str (s : Text)
  | arr (xs : List Value)
  | obj (fields : List (Text × Value))

/-- Induction on a value: an array by its elements and an object by its fields. -/
@[elab_as_elim]
theorem Value.induction {motive : Value → Prop} (null : motive .null)
    (bool : ∀ b, motive (.bool b)) (num : ∀ n, motive (.num n)) (str : ∀ s, motive (.str s))
    (arr : ∀ xs, (∀ x ∈ xs, motive x) → motive (.arr xs))
    (obj : ∀ fields, (∀ f ∈ fields, motive f.2) → motive (.obj fields)) :
    ∀ v, motive v
  | .null => null
  | .bool b => bool b
  | .num n => num n
  | .str s => str s
  | .arr xs => arr xs fun x _ => Value.induction null bool num str arr obj x
  | .obj fields => obj fields fun f _ => Value.induction null bool num str arr obj f.2
termination_by v => sizeOf v
decreasing_by
  · have hlt := List.sizeOf_lt_of_mem ‹x ∈ xs›
    simp only [Value.arr.sizeOf_spec]
    omega
  · have hlt := List.sizeOf_lt_of_mem ‹f ∈ fields›
    have hfield : sizeOf f.2 < sizeOf f := by
      obtain ⟨name, v⟩ := f
      simp only [Prod.mk.sizeOf_spec]
      omega
    simp only [Value.obj.sizeOf_spec]
    omega

/-! ### Values as they are written -/

/-- A character of a string as it is written. -/
def escapeChar (c : Char) : Text :=
  if c = '"' then ['\\', '"']
  else if c = '\\' then ['\\', '\\']
  else if c.toNat = 8 then ['\\', 'b']
  else if c.toNat = 9 then ['\\', 't']
  else if c.toNat = 10 then ['\\', 'n']
  else if c.toNat = 12 then ['\\', 'f']
  else if c.toNat = 13 then ['\\', 'r']
  else if c.toNat < 32 then
    ['\\', 'u', '0', '0', Nat.digitChar (c.toNat / 16), Nat.digitChar (c.toNat % 16)]
  else [c]

/-- The characters of a string as they are written. -/
def escape (s : Text) : Text := s.flatMap escapeChar

/-- A string as it is written. -/
def quote (s : Text) : Text := '"' :: (escape s ++ ['"'])

/-- The start of a line at some level. -/
def indent (level : ℕ) : Text := '\n' :: List.replicate (2 * level) ' '

/-- What stands in front of an element: a comma, unless it is the first, and a new line. -/
def beforeItem (first : Bool) (level : ℕ) : Text :=
  if first then indent level else ',' :: indent level

/-- What stands in front of a closing bracket. -/
def beforeClose (isEmpty : Bool) (level : ℕ) : Text := if isEmpty then [] else indent level

mutual

/-- A value as it is written, at some level. -/
def pretty (level : ℕ) : Value → Text
  | .null => "null".toList
  | .bool b => if b then "true".toList else "false".toList
  | .num n => n.text
  | .str s => quote s
  | .arr xs =>
      '[' :: (prettyElements (level + 1) true xs ++ (beforeClose xs.isEmpty level ++ [']']))
  | .obj fields =>
      '\x7b' :: (prettyFields (level + 1) true fields ++
        (beforeClose fields.isEmpty level ++ ['\x7d']))

/-- The elements of an array as they are written. -/
def prettyElements (level : ℕ) (first : Bool) : List Value → Text
  | [] => []
  | x :: xs => beforeItem first level ++ (pretty level x ++ prettyElements level false xs)

/-- The fields of an object as they are written. -/
def prettyFields (level : ℕ) (first : Bool) : List (Text × Value) → Text
  | [] => []
  | (name, v) :: fields =>
      beforeItem first level ++ (quote name ++ (':' :: ' ' :: (pretty level v ++
        prettyFields level false fields)))

end

/-! ### Tokens -/

/-- The brackets and separators. -/
inductive Punct
  | arrOpen
  | arrClose
  | objOpen
  | objClose
  | comma
  | colon
  deriving DecidableEq

/-- The tokens: punctuation, a string, and a literal or a number. -/
inductive Token
  | punct (p : Punct)
  | text (s : Text)
  | atom (v : Value)

def Punct.char : Punct → Char
  | .arrOpen => '['
  | .arrClose => ']'
  | .objOpen => '\x7b'
  | .objClose => '\x7d'
  | .comma => ','
  | .colon => ':'

/-- The punctuation a character is. -/
def punctOf (c : Char) : Option Punct :=
  [Punct.arrOpen, .arrClose, .objOpen, .objClose, .comma, .colon].find? fun p => p.char == c

/-- White space between tokens. -/
def isSpace (c : Char) : Bool := c == ' ' || c == '\n' || c == '\r' || c == '\t'

/-- The characters of literals and numbers. -/
def isWordChar (c : Char) : Bool := c.isAlpha || isNumeralChar c

/-- The value a word is. -/
def atomOf (w : Text) : Option Value :=
  if w = "null".toList then some .null
  else if w = "true".toList then some (.bool true)
  else if w = "false".toList then some (.bool false)
  else if h : isNumeral w = true then some (.num ⟨w, h⟩)
  else none

/-- Where the machine stands: between tokens, in a word, in a string, behind a backslash, or in a
character given by its number. -/
inductive Mode
  | between
  | word (w : Text)
  | string (s : Text)
  | escape (s : Text)
  | code (s : Text) (digits : List ℕ)

/-- The value of a hexadecimal digit. -/
def hexDigit (c : Char) : Option ℕ :=
  (List.range 16).find? fun d => Nat.digitChar d == c.toLower

/-- A character behind a backslash. -/
def unescapeChar (c : Char) : Option Char :=
  [('"', '"'), ('\\', '\\'), ('/', '/'), ('b', Char.ofNat 8), ('t', '\t'), ('n', '\n'),
    ('f', Char.ofNat 12), ('r', '\r')].lookup c

/-- The character with some number; half a surrogate pair is none. -/
def charOf (n : ℕ) : Option Char := if n.isValidChar then some (Char.ofNat n) else none

/-- A character between tokens. -/
def lexBetween (c : Char) : Option (Mode × List Token) :=
  if isSpace c then some (.between, [])
  else if c = '"' then some (.string [], [])
  else
    match punctOf c with
    | some p => some (.between, [.punct p])
    | none => if isWordChar c then some (.word [c], []) else none

/-- **The machine that makes tokens**: where it stands after a character, and the tokens that end
there. -/
def lexStep : Mode → Char → Option (Mode × List Token)
  | .between, c => lexBetween c
  | .word w, c =>
      if isWordChar c then some (.word (w ++ [c]), [])
      else (atomOf w).bind fun v => (lexBetween c).map fun r => (r.1, .atom v :: r.2)
  | .string s, c =>
      if c = '"' then some (.between, [.text s])
      else if c = '\\' then some (.escape s, [])
      else if c.toNat < 32 then none
      else some (.string (s ++ [c]), [])
  | .escape s, c =>
      if c = 'u' then some (.code s [], [])
      else (unescapeChar c).map fun d => (.string (s ++ [d]), [])
  | .code s digits, c =>
      (hexDigit c).bind fun d =>
        if digits.length < 3 then some (.code s (digits ++ [d]), [])
        else (charOf ((digits ++ [d]).foldl (fun n d => 16 * n + d) 0)).map fun e =>
          (.string (s ++ [e]), [])

/-- The tokens of a text, from some mode on. -/
def lexFrom : Mode → Text → Option (List Token)
  | .between, [] => some []
  | .word w, [] => (atomOf w).map fun v => [.atom v]
  | _, [] => none
  | m, c :: s => (lexStep m c).bind fun r => (lexFrom r.1 s).map (r.2 ++ ·)

/-- The tokens of a text. -/
def lex (s : Text) : Option (List Token) := lexFrom .between s

/-! ### From tokens to a value -/

/-- An open container: what it holds so far, and the name of the field whose value is due. -/
inductive Frame
  | arr (done : List Value)
  | obj (done : List (Text × Value))
  | field (done : List (Text × Value)) (name : Text)

/-- What is due: a value; a value or the end of an empty array; a name or the end of an empty
object; a name; the colon behind a name; or whatever may follow a value. -/
inductive Due
  | value
  | element
  | field
  | name
  | colon (name : Text)
  | rest (v : Value)

/-- A token where a value is due. -/
def startValue (frames : List Frame) : Token → Option (Due × List Frame)
  | .atom v => some (.rest v, frames)
  | .text s => some (.rest (.str s), frames)
  | .punct .arrOpen => some (.element, .arr [] :: frames)
  | .punct .objOpen => some (.field, .obj [] :: frames)
  | .punct _ => none

/-- Punctuation behind a value. -/
def afterValue (v : Value) : List Frame → Punct → Option (Due × List Frame)
  | .arr done :: frames, .comma => some (.value, .arr (done ++ [v]) :: frames)
  | .arr done :: frames, .arrClose => some (.rest (.arr (done ++ [v])), frames)
  | .field done name :: frames, .comma => some (.name, .obj (done ++ [(name, v)]) :: frames)
  | .field done name :: frames, .objClose => some (.rest (.obj (done ++ [(name, v)])), frames)
  | _, _ => none

/-- **The machine that makes a value**: what is due behind a token, and the containers that are
still open. -/
def parseStep : Due → List Frame → Token → Option (Due × List Frame)
  | .value, frames, t => startValue frames t
  | .element, .arr _ :: frames, .punct .arrClose => some (.rest (.arr []), frames)
  | .element, frames, t => startValue frames t
  | .field, .obj _ :: frames, .punct .objClose => some (.rest (.obj []), frames)
  | .field, frames, .text s => some (.colon s, frames)
  | .name, frames, .text s => some (.colon s, frames)
  | .colon name, .obj done :: frames, .punct .colon => some (.value, .field done name :: frames)
  | .rest v, frames, .punct p => afterValue v frames p
  | _, _, _ => none

/-- The value of tokens, when something is due and some containers are open. -/
def parseFrom : Due → List Frame → List Token → Option Value
  | .rest v, [], [] => some v
  | _, _, [] => none
  | due, frames, t :: ts => (parseStep due frames t).bind fun r => parseFrom r.1 r.2 ts

/-- The value of tokens. -/
def parse (ts : List Token) : Option Value := parseFrom .value [] ts

/-- The value of a text. -/
def read (s : Text) : Option Value := (lex s).bind parse

/-! ### Strings are read back -/

theorem lexFrom_cons (m : Mode) (c : Char) (s : Text) :
    lexFrom m (c :: s) = (lexStep m c).bind fun r => (lexFrom r.1 s).map (r.2 ++ ·) := by
  cases m <;> rfl

/-- A character that ends no token. -/
theorem lexFrom_cons_of_silent {m m' : Mode} {c : Char} (h : lexStep m c = some (m', []))
    (s : Text) : lexFrom m (c :: s) = lexFrom m' s := by
  rw [lexFrom_cons, h, Option.bind_some]
  exact Option.map_id'

/-- A hexadecimal digit behind a backslash, before the last one. -/
theorem lexFrom_code {t : Text} {digits : List ℕ} (hdigits : digits.length < 3) {d : ℕ}
    (hd : d < 16) (s : Text) :
    lexFrom (.code t digits) (Nat.digitChar d :: s) = lexFrom (.code t (digits ++ [d])) s := by
  have hdigit : ∀ d < 16, hexDigit (Nat.digitChar d) = some d := by decide
  apply lexFrom_cons_of_silent
  rw [lexStep, hdigit d hd, Option.bind_some, if_pos hdigits]

/-- **A character is read back from its escaped form.** -/
theorem lexFrom_escapeChar (t : Text) (c : Char) (s : Text) :
    lexFrom (.string t) (escapeChar c ++ s) = lexFrom (.string (t ++ [c])) s := by
  have hbackslash : lexStep (.string t) '\\' = some (.escape t, []) := rfl
  -- two characters, of which the second names the escaped one
  have hshort : ∀ d e : Char, d ≠ 'u' → unescapeChar d = some e →
      lexFrom (.string t) ('\\' :: d :: s) = lexFrom (.string (t ++ [e])) s := by
    intro d e hd he
    rw [lexFrom_cons_of_silent hbackslash, lexFrom_cons_of_silent]
    rw [lexStep, if_neg hd, he, Option.map_some]
  have hcode : ∀ n e, c.toNat = n → Char.ofNat n = e → c = e := by
    intro n e hn he
    rw [← he, ← hn, Char.ofNat_toNat]
  unfold escapeChar
  split_ifs with hquote hslash hbs htab hlf hff hcr hcontrol
  · subst hquote
    exact hshort '"' '"' (by decide) rfl
  · subst hslash
    exact hshort '\\' '\\' (by decide) rfl
  · rw [hcode 8 _ hbs rfl]
    exact hshort 'b' _ (by decide) rfl
  · rw [hcode 9 '\t' htab rfl]
    exact hshort 't' _ (by decide) rfl
  · rw [hcode 10 '\n' hlf rfl]
    exact hshort 'n' _ (by decide) rfl
  · rw [hcode 12 _ hff rfl]
    exact hshort 'f' _ (by decide) rfl
  · rw [hcode 13 '\r' hcr rfl]
    exact hshort 'r' _ (by decide) rfl
  · -- four hexadecimal digits, of which the first two are zeros
    have hzero : Nat.digitChar 0 = '0' := rfl
    have hlast : hexDigit (Nat.digitChar (c.toNat % 16)) = some (c.toNat % 16) :=
      (by decide : ∀ d < 16, hexDigit (Nat.digitChar d) = some d) _ (Nat.mod_lt _ (by decide))
    have hvalue : [0, 0, c.toNat / 16, c.toNat % 16].foldl (fun n d => 16 * n + d) 0 = c.toNat := by
      simp only [List.foldl_cons, List.foldl_nil]
      omega
    have hchar : charOf c.toNat = some c := by
      have hvalid : c.toNat.isValidChar := .inl (by omega)
      rw [charOf, if_pos hvalid, Char.ofNat_toNat]
    simp only [List.cons_append, List.nil_append]
    have hu : lexStep (.escape t) 'u' = some (.code t [], []) := rfl
    rw [lexFrom_cons_of_silent hbackslash, lexFrom_cons_of_silent hu, ← hzero,
      lexFrom_code (by decide) (by decide), lexFrom_code (by simp) (by decide),
      lexFrom_code (by simp) (by omega), lexFrom_cons_of_silent]
    rw [lexStep, hlast, Option.bind_some, if_neg (by simp)]
    simp only [List.nil_append, List.cons_append]
    rw [hvalue, hchar, Option.map_some]
  · apply lexFrom_cons_of_silent
    rw [lexStep, if_neg hquote, if_neg hslash, if_neg hcontrol]

/-- **A string is read back from its escaped form.** -/
theorem lex_escape (t u s : Text) :
    lexFrom (.string t) (escape u ++ s) = lexFrom (.string (t ++ u)) s := by
  induction u generalizing t with
  | nil =>
      rw [List.append_nil]
      rfl
  | cons c u ih =>
      have hcons : escape (c :: u) = escapeChar c ++ escape u := rfl
      rw [hcons, List.append_assoc, lexFrom_escapeChar, ih, List.append_assoc,
        List.singleton_append]

/-! ### The tokens of a value are those of its text -/

/-- What stands in front of an element: a comma, unless it is the first. -/
def commaUnless (first : Bool) : List Token := if first then [] else [.punct .comma]

mutual

/-- The tokens of a value. -/
def tokens : Value → List Token
  | .null => [.atom .null]
  | .bool b => [.atom (.bool b)]
  | .num n => [.atom (.num n)]
  | .str s => [.text s]
  | .arr xs => .punct .arrOpen :: (elementTokens true xs ++ [.punct .arrClose])
  | .obj fields => .punct .objOpen :: (fieldTokens true fields ++ [.punct .objClose])

/-- The tokens of the elements of an array. -/
def elementTokens (first : Bool) : List Value → List Token
  | [] => []
  | x :: xs => commaUnless first ++ (tokens x ++ elementTokens false xs)

/-- The tokens of the fields of an object. -/
def fieldTokens (first : Bool) : List (Text × Value) → List Token
  | [] => []
  | (name, v) :: fields =>
      commaUnless first ++ (.text name :: .punct .colon :: (tokens v ++ fieldTokens false fields))

end

/-- A text in front of which a word ends. -/
def Ends (s : Text) : Prop := ∀ c, s.head? = some c → isWordChar c = false

theorem ends_cons {c : Char} (hc : isWordChar c = false) (s : Text) : Ends (c :: s) := by
  rintro _ ⟨⟩
  exact hc

theorem Ends.append {s t : Text} (hs : Ends s) (ht : Ends t) : Ends (s ++ t) := by
  cases s with
  | nil => exact ht
  | cons c s => exact ends_cons (hs c rfl) _

/-- A text is made of these tokens, whatever follows it. -/
def Closed (s : Text) (ts : List Token) : Prop :=
  ∀ rest, lex (s ++ rest) = (lex rest).map (ts ++ ·)

/-- A text is made of these tokens, when what follows it ends a word. -/
def Lexes (s : Text) (ts : List Token) : Prop :=
  ∀ rest, Ends rest → lex (s ++ rest) = (lex rest).map (ts ++ ·)

theorem Closed.lexes {s : Text} {ts : List Token} (h : Closed s ts) : Lexes s ts :=
  fun rest _ => h rest

theorem closed_nil : Closed [] [] := fun _ => Option.map_id'.symm

theorem Closed.append {s t : Text} {ts ts' : List Token} (h : Closed s ts) (h' : Closed t ts') :
    Closed (s ++ t) (ts ++ ts') := by
  intro rest
  rw [List.append_assoc, h, h', Option.map_map]
  simp only [Function.comp_def, List.append_assoc]

theorem Closed.append_lexes {s t : Text} {ts ts' : List Token} (h : Closed s ts)
    (h' : Lexes t ts') : Lexes (s ++ t) (ts ++ ts') := by
  intro rest hrest
  rw [List.append_assoc, h, h' rest hrest, Option.map_map]
  simp only [Function.comp_def, List.append_assoc]

theorem Lexes.append {s t : Text} {ts ts' : List Token} (h : Lexes s ts) (h' : Lexes t ts')
    (ht : Ends t) : Lexes (s ++ t) (ts ++ ts') := by
  intro rest hrest
  rw [List.append_assoc, h _ (ht.append hrest), h' rest hrest, Option.map_map]
  simp only [Function.comp_def, List.append_assoc]

theorem closed_punct (p : Punct) : Closed [p.char] [.punct p] := by
  intro rest
  have hstep : lexStep .between p.char = some (.between, [.punct p]) := by
    cases p <;> rfl
  rw [List.singleton_append, lex, lexFrom_cons, hstep]
  rfl

theorem closed_space {s : Text} (h : ∀ c ∈ s, isSpace c = true) : Closed s [] := by
  intro rest
  induction s with
  | nil => exact Option.map_id'.symm
  | cons c s ih =>
      obtain ⟨hc, hs⟩ := List.forall_mem_cons.1 h
      have hstep : lexStep .between c = some (.between, []) := if_pos hc
      rw [List.cons_append, lex, lexFrom_cons_of_silent hstep]
      exact ih hs

theorem closed_quote (s : Text) : Closed (quote s) [.text s] := by
  intro rest
  have hopen : lexStep .between '"' = some (.string [], []) := rfl
  have hclose : lexStep (.string s) '"' = some (.between, [.text s]) := rfl
  rw [quote, List.cons_append, lex, lexFrom_cons_of_silent hopen,
    List.append_assoc, lex_escape, List.nil_append, List.singleton_append, lexFrom_cons, hclose]
  rfl

/-- The rest of a word. -/
theorem lexFrom_word {w u : Text} {v : Value} (hu : ∀ c ∈ u, isWordChar c = true)
    (hv : atomOf (w ++ u) = some v) {rest : Text} (hrest : Ends rest) :
    lexFrom (.word w) (u ++ rest) = (lex rest).map (.atom v :: ·) := by
  induction u generalizing w with
  | nil =>
      rw [List.append_nil] at hv
      cases rest with
      | nil =>
          rw [List.append_nil, lexFrom, hv]
          rfl
      | cons c rest =>
          -- the character behind the word ends it
          have hc : isWordChar c = false := hrest c rfl
          have hstep : lexStep (.word w) c =
              (lexBetween c).map fun r => (r.1, .atom v :: r.2) := by
            rw [lexStep, if_neg (by simp [hc]), hv, Option.bind_some]
          rw [List.nil_append, lexFrom_cons, hstep, lex, lexFrom_cons, lexStep]
          cases lexBetween c with
          | none => rfl
          | some r => simp [Function.comp_def]
  | cons c u ih =>
      obtain ⟨hc, hu⟩ := List.forall_mem_cons.1 hu
      have hstep : lexStep (.word w) c = some (.word (w ++ [c]), []) := if_pos hc
      have hv' : atomOf (w ++ [c] ++ u) = some v := by
        rw [List.append_assoc]
        exact hv
      rw [List.cons_append, lexFrom_cons_of_silent hstep]
      exact ih hu hv'

/-- A word with its value. -/
theorem lexes_word {w : Text} {v : Value} (hw : ∀ c ∈ w, isWordChar c = true) (hne : w ≠ [])
    (hv : atomOf w = some v) : Lexes w [.atom v] := by
  intro rest hrest
  cases w with
  | nil => exact absurd rfl hne
  | cons c w =>
      obtain ⟨hc, hw⟩ := List.forall_mem_cons.1 hw
      have hstep : lexStep .between c = some (.word [c], []) := by
        have hother : isSpace c = false ∧ c ≠ '"' ∧ punctOf c = none := by
          refine ⟨?_, ?_, ?_⟩
          · by_contra hspace
            rw [Bool.not_eq_false, isSpace] at hspace
            simp only [Bool.or_eq_true, beq_iff_eq] at hspace
            rcases hspace with ((rfl | rfl) | rfl) | rfl <;> exact absurd hc (by decide)
          · rintro rfl
            exact absurd hc (by decide)
          · rw [punctOf, List.find?_eq_none]
            intro p _ hp
            rw [← beq_iff_eq.1 hp] at hc
            cases p <;> exact absurd hc (by decide)
        rw [lexStep, lexBetween, if_neg (by simp [hother.1]), if_neg hother.2.1, hother.2.2]
        exact if_pos hc
      rw [List.cons_append, lex, lexFrom_cons_of_silent hstep]
      exact lexFrom_word hw hv hrest

theorem lexes_numeral (n : Numeral) : Lexes n.text [.atom (.num n)] := by
  have hliteral : ∀ w : Text, isNumeral w = false → n.text ≠ w := by
    rintro w hw rfl
    rw [n.valid] at hw
    cases hw
  refine lexes_word (fun c hc => ?_) n.ne_nil ?_
  · rw [isWordChar, isNumeralChar_of_isNumeral n.valid c hc, Bool.or_true]
  · rw [atomOf, if_neg (hliteral _ (by decide)), if_neg (hliteral _ (by decide)),
      if_neg (hliteral _ (by decide)), dif_pos n.valid]

theorem closed_indent (level : ℕ) : Closed (indent level) [] := by
  refine closed_space (List.forall_mem_cons.2 ⟨by decide, ?_⟩)
  intro c hc
  rw [List.eq_of_mem_replicate hc]
  rfl

theorem ends_indent (level : ℕ) : Ends (indent level) := ends_cons (by decide) _

theorem closed_beforeItem (first : Bool) (level : ℕ) :
    Closed (beforeItem first level) (commaUnless first) := by
  cases first with
  | true => exact closed_indent level
  | false => exact (closed_punct .comma).append (closed_indent level)

/-- The closing bracket of a container. -/
theorem closed_close (isEmpty : Bool) (level : ℕ) (p : Punct) :
    Closed (beforeClose isEmpty level ++ [p.char]) [.punct p] := by
  cases isEmpty with
  | true => exact closed_punct p
  | false => exact (closed_indent level).append (closed_punct p)

theorem ends_close (isEmpty : Bool) (level : ℕ) (p : Punct) :
    Ends (beforeClose isEmpty level ++ [p.char]) := by
  cases isEmpty with
  | true => exact ends_cons (by cases p <;> rfl) _
  | false => exact (ends_indent level).append (ends_cons (by cases p <;> rfl) _)

/-- The elements of an array. -/
theorem lexes_elements {xs : List Value} (h : ∀ x ∈ xs, ∀ level, Lexes (pretty level x) (tokens x))
    (level : ℕ) (first : Bool) :
    Lexes (prettyElements level first xs) (elementTokens first xs) ∧
      Ends (prettyElements level first xs) := by
  induction xs generalizing first with
  | nil =>
      refine ⟨closed_nil.lexes, ?_⟩
      rintro _ ⟨⟩
  | cons x xs ih =>
      obtain ⟨hx, hxs⟩ := List.forall_mem_cons.1 h
      obtain ⟨hlex, hends⟩ := ih hxs false
      rw [prettyElements, elementTokens]
      refine ⟨?_, ?_⟩
      · exact (closed_beforeItem first level).append_lexes ((hx level).append hlex hends)
      · cases first <;> exact ends_cons (by decide) _

/-- The fields of an object. -/
theorem lexes_fields {fields : List (Text × Value)}
    (h : ∀ f ∈ fields, ∀ level, Lexes (pretty level f.2) (tokens f.2)) (level : ℕ) (first : Bool) :
    Lexes (prettyFields level first fields) (fieldTokens first fields) ∧
      Ends (prettyFields level first fields) := by
  induction fields generalizing first with
  | nil =>
      refine ⟨closed_nil.lexes, ?_⟩
      rintro _ ⟨⟩
  | cons f fields ih =>
      obtain ⟨name, v⟩ := f
      obtain ⟨hv, hfields⟩ := List.forall_mem_cons.1 h
      obtain ⟨hlex, hends⟩ := ih hfields false
      have hcolon : Closed [':', ' '] [.punct .colon] :=
        (closed_punct .colon).append (closed_space (s := [' ']) (by decide))
      rw [prettyFields, fieldTokens]
      refine ⟨?_, ?_⟩
      · exact (closed_beforeItem first level).append_lexes ((closed_quote name).append_lexes
          (hcolon.append_lexes ((hv level).append hlex hends)))
      · cases first <;> exact ends_cons (by decide) _

/-- **The tokens of a value are those of its text.** -/
theorem lexes_pretty (v : Value) : ∀ level, Lexes (pretty level v) (tokens v) := by
  induction v using Value.induction with
  | null => exact fun _ => lexes_word (w := "null".toList) (by decide) (by decide) rfl
  | bool b =>
      intro level
      cases b with
      | true => exact lexes_word (w := "true".toList) (by decide) (by decide) rfl
      | false => exact lexes_word (w := "false".toList) (by decide) (by decide) rfl
  | num n => exact fun _ => lexes_numeral n
  | str s => exact fun _ => (closed_quote s).lexes
  | arr xs ih =>
      intro level
      have hxs := (lexes_elements ih (level + 1) true).1
      exact (closed_punct .arrOpen).append_lexes
        (hxs.append (closed_close xs.isEmpty level .arrClose).lexes
          (ends_close xs.isEmpty level .arrClose))
  | obj fields ih =>
      intro level
      have hfields := (lexes_fields ih (level + 1) true).1
      exact (closed_punct .objOpen).append_lexes
        (hfields.append (closed_close fields.isEmpty level .objClose).lexes
          (ends_close fields.isEmpty level .objClose))

/-! ### A value is parsed from its tokens -/

theorem parseFrom_cons (due : Due) (frames : List Frame) (t : Token) (ts : List Token) :
    parseFrom due frames (t :: ts) =
      (parseStep due frames t).bind fun r => parseFrom r.1 r.2 ts := by
  cases due <;> cases frames <;> rfl

/-- A value where one is due, whatever containers are open. -/
def Parses (v : Value) : Prop :=
  ∀ due, due = .value ∨ due = .element → ∀ frames ts,
    parseFrom due frames (tokens v ++ ts) = parseFrom (.rest v) frames ts

/-- The first token of a value. -/
theorem parseStep_start {due : Due} (hdue : due = .value ∨ due = .element) {t : Token}
    (ht : t ≠ .punct .arrClose) (frames : List Frame) :
    parseStep due frames t = startValue frames t := by
  rcases hdue with rfl | rfl
  · cases frames <;> rfl
  · -- only a closing bracket ends an array where an element is due
    unfold parseStep
    split
    case h_2 => exact absurd rfl ht
    case h_3 => rfl
    all_goals simp_all

theorem parses_of_start {v : Value} {t : Token} (htokens : tokens v = [t])
    (hstart : ∀ frames, startValue frames t = some (.rest v, frames)) : Parses v := by
  rintro due hdue frames ts
  have ht : t ≠ .punct .arrClose := by
    rintro rfl
    exact absurd (hstart []) (fun h => by cases h)
  rw [htokens, List.singleton_append, parseFrom_cons, parseStep_start hdue ht, hstart,
    Option.bind_some]

/-- The elements that follow an element of an array. -/
theorem parseFrom_elements {xs : List Value} (h : ∀ x ∈ xs, Parses x) (v : Value)
    (done : List Value) (frames : List Frame) (ts : List Token) :
    parseFrom (.rest v) (.arr done :: frames)
        (elementTokens false xs ++ .punct .arrClose :: ts) =
      parseFrom (.rest (.arr (done ++ v :: xs))) frames ts := by
  induction xs generalizing v done with
  | nil => rfl
  | cons x xs ih =>
      obtain ⟨hx, hxs⟩ := List.forall_mem_cons.1 h
      have hcomma : parseStep (.rest v) (.arr done :: frames) (.punct .comma) =
          some (.value, .arr (done ++ [v]) :: frames) := rfl
      have htokens : elementTokens false (x :: xs) ++ .punct .arrClose :: ts =
          .punct .comma :: (tokens x ++ (elementTokens false xs ++ .punct .arrClose :: ts)) := by
        simp [elementTokens, commaUnless]
      rw [htokens, parseFrom_cons, hcomma, Option.bind_some, hx .value (.inl rfl), ih hxs,
        List.append_assoc, List.singleton_append]

/-- The fields that follow a field of an object. -/
theorem parseFrom_fields {fields : List (Text × Value)} (h : ∀ f ∈ fields, Parses f.2) (v : Value)
    (name : Text) (done : List (Text × Value)) (frames : List Frame) (ts : List Token) :
    parseFrom (.rest v) (.field done name :: frames)
        (fieldTokens false fields ++ .punct .objClose :: ts) =
      parseFrom (.rest (.obj (done ++ (name, v) :: fields))) frames ts := by
  induction fields generalizing v name done with
  | nil => rfl
  | cons f fields ih =>
      obtain ⟨name', v'⟩ := f
      obtain ⟨hv, hfields⟩ := List.forall_mem_cons.1 h
      have hcomma : parseStep (.rest v) (.field done name :: frames) (.punct .comma) =
          some (.name, .obj (done ++ [(name, v)]) :: frames) := rfl
      have hname : ∀ done, parseStep .name (.obj done :: frames) (.text name') =
          some (.colon name', .obj done :: frames) := fun _ => rfl
      have hcolon : ∀ done, parseStep (.colon name') (.obj done :: frames) (.punct .colon) =
          some (.value, .field done name' :: frames) := fun _ => rfl
      have htokens : fieldTokens false ((name', v') :: fields) ++ .punct .objClose :: ts =
          .punct .comma :: .text name' :: .punct .colon ::
            (tokens v' ++ (fieldTokens false fields ++ .punct .objClose :: ts)) := by
        simp [fieldTokens, commaUnless]
      rw [htokens, parseFrom_cons, hcomma, Option.bind_some, parseFrom_cons, hname,
        Option.bind_some, parseFrom_cons, hcolon, Option.bind_some, hv .value (.inl rfl),
        ih hfields, List.append_assoc, List.singleton_append]

/-- **A value is parsed from its tokens**, whatever containers are open. -/
theorem parses (v : Value) : Parses v := by
  induction v using Value.induction with
  | null => exact parses_of_start rfl fun _ => rfl
  | bool b => exact parses_of_start rfl fun _ => rfl
  | num n => exact parses_of_start rfl fun _ => rfl
  | str s => exact parses_of_start rfl fun _ => rfl
  | arr xs ih =>
      rintro due hdue frames ts
      rw [tokens, List.cons_append, parseFrom_cons, parseStep_start hdue (by simp),
        List.append_assoc]
      change parseFrom .element (.arr [] :: frames) _ = _
      cases xs with
      | nil => rfl
      | cons x xs =>
          obtain ⟨hx, hxs⟩ := List.forall_mem_cons.1 ih
          change parseFrom .element (.arr [] :: frames) ((tokens x ++ _) ++ _) = _
          rw [List.append_assoc, hx .element (.inr rfl)]
          exact parseFrom_elements hxs x [] frames ts
  | obj fields ih =>
      rintro due hdue frames ts
      rw [tokens, List.cons_append, parseFrom_cons, parseStep_start hdue (by simp),
        List.append_assoc]
      change parseFrom .field (.obj [] :: frames) _ = _
      cases fields with
      | nil => rfl
      | cons f fields =>
          obtain ⟨name, v⟩ := f
          obtain ⟨hv, hfields⟩ := List.forall_mem_cons.1 ih
          change parseFrom .value (.field [] name :: frames) ((tokens v ++ _) ++ _) = _
          rw [List.append_assoc, hv .value (.inl rfl)]
          exact parseFrom_fields hfields v name [] frames ts

theorem parse_tokens (v : Value) : parse (tokens v) = some v := by
  have hrun := parses v .value (.inl rfl) [] []
  rw [List.append_nil] at hrun
  exact hrun

/-- **A value is read back from its text.** -/
theorem read_pretty (v : Value) : read (pretty 0 v) = some v := by
  have hlex : lex (pretty 0 v) = some (tokens v) := by
    have h := lexes_pretty v 0 [] (by rintro _ ⟨⟩)
    rw [List.append_nil] at h
    rw [h]
    exact congrArg some (List.append_nil _)
  rw [read, hlex, Option.bind_some, parse_tokens]

end JsonText
