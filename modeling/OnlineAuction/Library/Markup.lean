import Mathlib.Data.List.Basic
import Mathlib.Tactic.Common

/-! Reading HTML character by character: which characters are markup, and which content
the others stand for. Text that is escaped before it is put between markup is read as
the content it was, wherever content may stand, and adds no markup. -/

namespace Markup

/-- Where a reader is: between tags, in a tag, or in a quoted value of an attribute. -/
inductive Place where
  | text
  | tag
  | value
  | singleQuoted
  deriving DecidableEq

inductive Token where
  | markup (c : Char)
  | content (c : Char)
  deriving DecidableEq

/-- What a reader makes of its input. The characters since an ampersand are pending
until they are a character reference, or can no longer become one. -/
structure Reader where
  place : Place
  pending : Option (List Char)
  deriving DecidableEq

/-- The references that `html.escape` writes. -/
def references : List (List Char × Char) :=
  [("amp;".toList, '&'), ("lt;".toList, '<'), ("gt;".toList, '>'), ("quot;".toList, '"'),
    ("#x27;".toList, '\'')]

/-- A character of content, or the end of it. -/
def Place.content (place : Place) (ends : Char) (c : Char) (next : Place) : Reader × List Token :=
  if c = ends then (⟨next, none⟩, [.markup c])
  else if c = '&' then (⟨place, some []⟩, [])
  else (⟨place, none⟩, [.content c])

/-- Inside text or a quoted value every character is content but the two that
end it. -/
theorem Place.content_of_ne {place next : Place} {ends c : Char} (hEnds : c ≠ ends) (hAmp : c ≠ '&') :
    place.content ends c next = (⟨place, none⟩, [.content c]) := by
  rw [Place.content, if_neg hEnds, if_neg hAmp]

/-- A character that belongs to no reference. -/
def Place.read : Place → Char → Reader × List Token
  | .text, c => Place.text.content '<' c .tag
  | .value, c => Place.value.content '"' c .tag
  | .singleQuoted, c => Place.singleQuoted.content '\'' c .tag
  | .tag, c =>
      let next := if c = '>' then .text else if c = '"' then .value
        else if c = '\'' then .singleQuoted else .tag
      (⟨next, none⟩, [.markup c])

def Reader.step (r : Reader) (c : Char) : Reader × List Token :=
  match r.pending with
  | none => r.place.read c
  | some chars =>
      match references.lookup (chars ++ [c]) with
      | some decoded => (⟨r.place, none⟩, [.content decoded])
      | none =>
          if references.any fun reference => (chars ++ [c]).isPrefixOf reference.1 then
            (⟨r.place, some (chars ++ [c])⟩, [])
          else
            let (r', tokens) := r.place.read c
            (r', .content '&' :: chars.map .content ++ tokens)

def Reader.read : Reader → List Char → Reader × List Token
  | r, [] => (r, [])
  | r, c :: rest =>
      let (r', tokens) := r.step c
      let (r'', tokens') := r'.read rest
      (r'', tokens ++ tokens')

theorem Reader.read_cons {r r' r'' : Reader} {tokens tokens' : List Token} {c : Char} {rest : List Char}
    (hStep : r.step c = (r', tokens)) (hRest : r'.read rest = (r'', tokens')) :
    r.read (c :: rest) = (r'', tokens ++ tokens') := by
  rw [Reader.read, hStep]
  dsimp only
  rw [hRest]

/-- Reading a text in two parts is reading it at once, the second part from
where the first ends. -/
theorem Reader.read_append (r : Reader) (first rest : List Char) :
    r.read (first ++ rest) =
      (((r.read first).1.read rest).1, (r.read first).2 ++ ((r.read first).1.read rest).2) := by
  induction first generalizing r with
  | nil => rfl
  | cons c first ih => simp [Reader.read, ih]

def escapeChar : Char → List Char
  | '&' => "&amp;".toList
  | '<' => "&lt;".toList
  | '>' => "&gt;".toList
  | '"' => "&quot;".toList
  | '\'' => "&#x27;".toList
  | c => [c]

/-- `html.escape`, with quotes. -/
def escape (text : String) : List Char := text.toList.flatMap escapeChar

/-- Between tags, and in double quotes, every character can be content. -/
def Place.open : Place → Bool
  | .text | .value => true
  | .tag | .singleQuoted => false

/-- A character without a meaning of its own. -/
theorem read_ordinary {place : Place} (hOpen : place.open = true) {c : Char}
    (hChar : c ∉ ['&', '<', '>', '"', '\'']) :
    (Reader.mk place none).read [c] = (⟨place, none⟩, [.content c]) := by
  simp only [List.mem_cons, List.not_mem_nil, or_false, not_or] at hChar
  obtain ⟨hAmp, hLt, _, hQuot, _⟩ := hChar
  cases place with
  | text => simp [Reader.read, Reader.step, Place.read, Place.content_of_ne hLt hAmp]
  | value => simp [Reader.read, Reader.step, Place.read, Place.content_of_ne hQuot hAmp]
  | tag => cases hOpen
  | singleQuoted => cases hOpen

/-- An escaped character is read back as the character itself, wherever text or
a quoted value stands. -/
theorem read_escapeChar {place : Place} (hOpen : place.open = true) (c : Char) :
    (Reader.mk place none).read (escapeChar c) = (⟨place, none⟩, [.content c]) := by
  unfold escapeChar
  split
  case h_6 hAmp hLt hGt hQuot hApos =>
    apply read_ordinary hOpen
    simp only [List.mem_cons, List.not_mem_nil, or_false, not_or]
    exact ⟨hAmp, hLt, hGt, hQuot, hApos⟩
  all_goals
    cases place with
    | text => decide
    | value => decide
    | tag => cases hOpen
    | singleQuoted => cases hOpen

/-- Escaped text is read as it was. -/
theorem read_escape {place : Place} (hOpen : place.open = true) (text : String) :
    (Reader.mk place none).read (escape text) = (⟨place, none⟩, text.toList.map .content) := by
  unfold escape
  induction text.toList with
  | nil => rfl
  | cons c rest ih =>
      rw [List.flatMap_cons, Reader.read_append, read_escapeChar hOpen, ih]
      rfl

/-- Every character can stand between markup as it is. -/
def IsPlain (text : String) : Prop := ∀ c ∈ text.toList, c ∉ ['&', '<', '>', '"', '\'']

/-- A text without the five escaped characters is plain. -/
theorem IsPlain.of_chars {chars : List Char}
    (h : (chars.all fun c => !(['&', '<', '>', '"', '\''].contains c)) = true) :
    IsPlain (String.ofList chars) := by
  intro c hMem
  rw [String.toList_ofList] at hMem
  simpa using List.all_eq_true.mp h c hMem

theorem IsPlain.append {text text' : String} (h : IsPlain text) (h' : IsPlain text') :
    IsPlain (text ++ text') := by
  intro c hMem
  rw [String.toList_append] at hMem
  exact (List.mem_append.mp hMem).elim (h c) (h' c)

abbrev PlainText := {text : String // IsPlain text}

/-- A plain text needs no escaping: it is read as its own characters. -/
theorem read_plain {place : Place} (hOpen : place.open = true) (text : PlainText) :
    (Reader.mk place none).read text.val.toList =
      (⟨place, none⟩, text.val.toList.map .content) := by
  obtain ⟨text, hPlain⟩ := text
  unfold IsPlain at hPlain
  dsimp only
  generalize text.toList = chars at hPlain ⊢
  induction chars with
  | nil => rfl
  | cons c rest ih =>
      obtain ⟨hChar, hRest⟩ := List.forall_mem_cons.mp hPlain
      have hFirst := read_ordinary hOpen hChar
      rw [← List.singleton_append, Reader.read_append, hFirst, ih hRest]
      rfl

inductive Part where
  | literal (text : String)
  | escaped (text : String)
  | plain (text : PlainText)

abbrev Html := List Part

def Part.chars : Part → List Char
  | .literal text => text.toList
  | .escaped text => escape text
  | .plain text => text.val.toList

def Html.chars (page : Html) : List Char := page.flatMap Part.chars

theorem Html.chars_cons (part : Part) (rest : Html) :
    Html.chars (part :: rest) = part.chars ++ rest.chars := List.flatMap_cons

def Html.literals (page : Html) : List String := page.filterMap fun
  | .literal text => some text
  | .escaped _ | .plain _ => none

theorem Html.literals_literal (text : String) (rest : Html) :
    Html.literals (.literal text :: rest) = text :: rest.literals := rfl

theorem Html.literals_plain (text : PlainText) (rest : Html) :
    Html.literals (.plain text :: rest) = rest.literals := rfl

/-- The markup of two pages put together is that of the first and that of the
second. -/
theorem Html.literals_append (page page' : Html) :
    (page ++ page').literals = page.literals ++ page'.literals := List.filterMap_append

def Html.shown (page : Html) : List Char := page.flatMap fun
  | .literal _ => []
  | .escaped text => text.toList
  | .plain text => text.val.toList

def Html.Fields (page : Html) : Prop := page.literals = []

def readLiteral (place : Place) (text : String) : Reader × List Token :=
  (Reader.mk place none).read text.toList

/-- What is read of a page: its literals in their places, and its fields as content. -/
def Html.tokens (place : Place) : Html → List Token
  | [] => []
  | .literal text :: rest => (readLiteral place text).2 ++ tokens (readLiteral place text).1.place rest
  | .escaped text :: rest => text.toList.map .content ++ tokens place rest
  | .plain text :: rest => text.val.toList.map .content ++ tokens place rest

/-- Where a reader is after characters without an ampersand. -/
def Place.through : Place → List Char → Option Place
  | place, [] => some place
  | place, c :: rest =>
      if c = '&' then none
      else
        match place with
        | .text => if c = '<' then through .tag rest else through .text rest
        | .value => if c = '"' then through .tag rest else through .value rest
        | .singleQuoted => if c = '\'' then through .tag rest else through .singleQuoted rest
        | .tag =>
            if c = '>' then through .text rest
            else if c = '"' then through .value rest
            else if c = '\'' then through .singleQuoted rest
            else through .tag rest

/-- Without an ampersand, a character is read at once. -/
theorem Place.through_cons {place place' : Place} {c : Char} {rest : List Char}
    (h : place.through (c :: rest) = some place') :
    ∃ next tokens, (Reader.mk place none).step c = (⟨next, none⟩, tokens) ∧
      next.through rest = some place' := by
  have hAmp : c ≠ '&' := by
    rintro rfl
    cases place <;> cases h
  cases place with
  | tag =>
      refine ⟨_, _, rfl, ?_⟩
      simp only [Place.through, if_neg hAmp] at h
      split_ifs at h ⊢ <;> assumption
  | text =>
      by_cases hEnds : c = '<' <;>
        simp [Reader.step, Place.read, Place.content, Place.through, hEnds, hAmp] at h ⊢ <;> assumption
  | value =>
      by_cases hEnds : c = '"' <;>
        simp [Reader.step, Place.read, Place.content, Place.through, hEnds, hAmp] at h ⊢ <;> assumption
  | singleQuoted =>
      by_cases hEnds : c = '\'' <;>
        simp [Reader.step, Place.read, Place.content, Place.through, hEnds, hAmp] at h ⊢ <;> assumption

/-- Markup that leads from one place to another leaves the reader there. -/
theorem read_through {place place' : Place} {chars : List Char} (h : place.through chars = some place') :
    ((Reader.mk place none).read chars).1 = ⟨place', none⟩ := by
  induction chars generalizing place with
  | nil =>
      cases h
      rfl
  | cons c rest ih =>
      obtain ⟨next, tokens, hStep, hRest⟩ := Place.through_cons h
      rw [Reader.read_cons hStep rfl, ih hRest]

/-- A stretch of a page takes a reader from one place to another: its literals have no
ampersand, and its fields stand where content may. -/
inductive Html.Takes : Html → Place → Place → Prop where
  | nil (place : Place) : Takes [] place place
  | literal {chars : List Char} {rest : Html} {place place' place'' : Place} :
      place.through chars = some place' → Takes rest place' place'' →
      Takes (.literal (String.ofList chars) :: rest) place place''
  | escaped {text : String} {rest : Html} {place place' : Place} :
      place.open = true → Takes rest place place' → Takes (.escaped text :: rest) place place'
  | plain {text : PlainText} {rest : Html} {place place' : Place} :
      place.open = true → Takes rest place place' → Takes (.plain text :: rest) place place'

namespace Html.Takes

variable {page page' : Html} {place place' place'' : Place}

theorem append (h : page.Takes place place') (h' : page'.Takes place' place'') :
    (page ++ page').Takes place place'' := by
  induction h with
  | nil => exact h'
  | literal hThrough _ ih => exact .literal hThrough (ih h')
  | escaped hOpen _ ih => exact .escaped hOpen (ih h')
  | plain hOpen _ ih => exact .plain hOpen (ih h')

/-- A page of fields alone stays where it starts. -/
theorem fields (hFields : page.Fields) (hOpen : place.open = true) : page.Takes place place := by
  induction page with
  | nil => exact .nil place
  | cons part rest ih =>
      cases part with
      | literal => cases hFields
      | escaped => exact .escaped hOpen (ih hFields)
      | plain => exact .plain hOpen (ih hFields)

/-- What is read of it, and where. -/
theorem read (h : page.Takes place place') :
    (Reader.mk place none).read page.chars = (⟨place', none⟩, page.tokens place) := by
  induction h with
  | nil => rfl
  | literal hThrough _ ih =>
      have hAfter := read_through hThrough
      rw [chars_cons, Reader.read_append, Part.chars, String.toList_ofList, hAfter, ih, tokens,
        readLiteral, String.toList_ofList, hAfter]
  | escaped hOpen _ ih => rw [chars_cons, Reader.read_append, Part.chars, read_escape hOpen, ih, tokens]
  | plain hOpen _ ih => rw [chars_cons, Reader.read_append, Part.chars, read_plain hOpen, ih, tokens]

theorem tokens_append (h : page.Takes place place') (rest : Html) :
    (page ++ rest).tokens place = page.tokens place ++ rest.tokens place' := by
  induction h with
  | nil => rfl
  | literal hThrough _ ih =>
      have hAfter := read_through hThrough
      simp only [List.cons_append, tokens, readLiteral, String.toList_ofList, hAfter, ih,
        List.append_assoc]
  | escaped _ _ ih => simp only [List.cons_append, tokens, ih, List.append_assoc]
  | plain _ _ ih => simp only [List.cons_append, tokens, ih, List.append_assoc]

end Html.Takes

/-- Fields are content. -/
theorem Html.tokens_fields (place : Place) {page : Html} (h : page.Fields) :
    page.tokens place = page.shown.map .content := by
  induction page with
  | nil => rfl
  | cons part rest ih =>
      cases part with
      | literal => cases h
      | escaped text => simp [tokens, shown, ih h]
      | plain text => simp [tokens, shown, ih h]

def Token.isMarkup : Token → Bool
  | .markup _ => true
  | .content _ => false

theorem filter_content (chars : List Char) : (chars.map Token.content).filter Token.isMarkup = [] := by
  simp [List.filter_eq_nil_iff, Token.isMarkup]

/-- The markup of literals, whatever fields stand between them. -/
def markup : Place → List String → List Token
  | _, [] => []
  | place, text :: rest =>
      (readLiteral place text).2.filter Token.isMarkup ++ markup (readLiteral place text).1.place rest

/-- The markup of a page is that of its literals. -/
theorem Html.markup_tokens (place : Place) (page : Html) :
    (page.tokens place).filter Token.isMarkup = markup place page.literals := by
  induction page generalizing place with
  | nil => rfl
  | cons part rest ih =>
      cases part with
      | literal text =>
          rw [Html.tokens, List.filter_append, ih]
          rfl
      | escaped text =>
          rw [Html.tokens, List.filter_append, filter_content, List.nil_append, ih]
          rfl
      | plain text =>
          rw [Html.tokens, List.filter_append, filter_content, List.nil_append, ih]
          rfl

/-- The text stands, whole, between these two characters of markup. -/
def Encloses (tokens : List Token) (opening closing : Char) (text : List Char) : Prop :=
  ∃ before after, tokens = before ++
    .markup opening :: (text.map .content ++ .markup closing :: after)

structure Opens (text : String) (place place' : Place) (c : Char) : Prop where
  through : readLiteral place text = (⟨place', none⟩, (readLiteral place text).2)
  ends : (readLiteral place text).2.getLast? = some (.markup c)

/-- A literal ends in a character of markup when the reader's last token is one. -/
theorem Opens.of_chars {chars : List Char} {place place' : Place} {c : Char}
    (hThrough : place.through chars = some place')
    (hEnds : ((Reader.mk place none).read chars).2.getLast? = some (.markup c)) :
    Opens (String.ofList chars) place place' c := by
  constructor
  · rw [readLiteral, String.toList_ofList, ← read_through hThrough]
  · rw [readLiteral, String.toList_ofList, hEnds]

def Closes (text : String) (place : Place) (c : Char) : Prop :=
  (readLiteral place text).2.head? = some (.markup c)

/-- A literal begins with a character of markup when the reader's first token is one. -/
theorem Closes.of_chars {chars : List Char} {place : Place} {c : Char}
    (h : ((Reader.mk place none).read chars).2.head? = some (.markup c)) :
    Closes (String.ofList chars) place c := by
  rw [Closes, readLiteral, String.toList_ofList, h]

/-- Fields between two such literals are the whole content between their markup. -/
theorem encloses {opener closer : String} {opening closing : Char} {place place' place'' : Place}
    (hOpens : Opens opener place' place'' opening) (hCloses : Closes closer place'' closing)
    (hOpen : place''.open = true) {before fields : Html} (hBefore : before.Takes place place')
    (hFields : fields.Fields) (rest : Html) :
    Encloses ((before ++ .literal opener :: (fields ++ .literal closer :: rest)).tokens place)
      opening closing fields.shown := by
  obtain ⟨first, hFirst⟩ := List.getLast?_eq_some_iff.mp hOpens.ends
  obtain ⟨last, hLast⟩ := List.head?_eq_some_iff.mp hCloses
  have hStretch := Html.Takes.fields hFields hOpen
  rw [hBefore.tokens_append, Html.tokens, hOpens.through, hFirst, hStretch.tokens_append,
    Html.tokens_fields _ hFields, Html.tokens, hLast]
  exact ⟨before.tokens place ++ first, _, by simp; rfl⟩

end Markup
