import Jianpu.Text.Markup
import Mathlib.Data.List.Forall2

/-! A reader of markup, strict about where a tag may begin and end. Escaped text is content to it,
whatever was escaped, and with the entities undone it is the text again. -/

set_option autoImplicit false

namespace Jianpu.Text.Markup

/-! The reader -/

/-- What markup is made of: a tag, by what stands between its angle brackets, or a character
outside of all tags. -/
inductive Token where
  | tag (body : String)
  | char (c : Char)
  deriving DecidableEq

/-- Where a reader stands: outside of all tags, or behind the beginning of a tag, perhaps inside a
quoted value. -/
inductive Place where
  | outside
  | inside (quote : Option Char) (body : List Char)

/-- What has been read of a tag that has not ended. -/
def Place.begun : Place → List Char
  | .outside => []
  | .inside _ body => '<' :: body

/-- The quote that is open behind a character of a tag. -/
def quoteAfter (quote : Option Char) (c : Char) : Option Char :=
  match quote with
  | none => if c = '"' ∨ c = '\'' then some c else none
  | some mark => if c = mark then none else some mark

/-- Reads markup on from a place. An angle bracket where no tag can begin or end is an error, and so
is a tag without an end. -/
def readFrom : Place → List Char → Option (List Token)
  | .outside, [] => some []
  | .inside .., [] => none
  | .outside, c :: rest =>
    if c = '<' then readFrom (.inside none []) rest
    else if c = '>' then none
    else (readFrom .outside rest).map (.char c :: ·)
  | .inside quote body, c :: rest =>
    if c = '<' then none
    else if c = '>' ∧ quote = none then
      (readFrom .outside rest).map (.tag (String.ofList body) :: ·)
    else readFrom (.inside (quoteAfter quote c) (body ++ [c])) rest

/-- The tags and the characters of markup. -/
def read (markup : String) : Option (List Token) :=
  readFrom .outside markup.toList

/-- The characters of a text, as content. -/
def content (text : String) : List Token :=
  text.toList.map .char

/-- How a token is written. -/
def Token.source : Token → String
  | .tag body => "<" ++ body ++ ">"
  | .char c => String.singleton c

/-- Tokens as they are written. -/
def source (tokens : List Token) : String :=
  String.ofList (tokens.flatMap fun token => token.source.toList)

/-- The name of a tag, up to the first space; the name of an end tag begins with a slash. -/
def tagName (body : String) : String :=
  String.ofList (body.toList.takeWhile (· ≠ ' '))

/-- The name of a token that is a tag. -/
def Token.name? : Token → Option String
  | .tag body => some (tagName body)
  | .char _ => none

/-- The names of the tags, in order. -/
def names (tokens : List Token) : List String :=
  tokens.filterMap Token.name?

/-- The tags, in order. -/
def tags (tokens : List Token) : List Token :=
  tokens.filter fun token => token.name?.isSome

/-- The characters up to the next tag. -/
def textBefore : List Token → List Char
  | .char c :: rest => c :: textBefore rest
  | [] | .tag _ :: _ => []

/-- Each tag with the characters up to the next one. -/
def segments : List Token → List (String × List Char)
  | [] => []
  | .char _ :: rest => segments rest
  | .tag body :: rest => (body, textBefore rest) :: segments rest

/-- Text with the entities of the three special characters undone, in one pass. -/
def unescape : List Char → List Char
  | '&' :: 'l' :: 't' :: ';' :: rest => '<' :: unescape rest
  | '&' :: 'g' :: 't' :: ';' :: rest => '>' :: unescape rest
  | '&' :: 'a' :: 'm' :: 'p' :: ';' :: rest => '&' :: unescape rest
  | c :: rest => c :: unescape rest
  | [] => []

/-- What is said behind each tag that a condition holds of. -/
def saidAfter (condition : String → Bool) (tokens : List Token) : List String :=
  ((segments tokens).filter fun segment => condition segment.1).map fun segment =>
    String.ofList (unescape segment.2)

/-! Escaping -/

theorem unescape_escapeChar_append (c : Char) (rest : List Char) :
    unescape (escapeChar c ++ rest) = c :: unescape rest := by
  unfold escapeChar
  split
  · rfl
  · rfl
  · rfl
  · rename_i ampersand _ _
    rw [List.singleton_append, unescape] <;>
      exact fun _ same => absurd same.symm (by rintro ⟨⟩; exact ampersand rfl)

theorem unescape_escape (text : String) :
    unescape (escape text).toList = text.toList := by
  rw [escape, String.toList_ofList]
  induction text.toList with
  | nil => rfl
  | cons c rest ih => rw [List.flatMap_cons, unescape_escapeChar_append, ih]

theorem mem_escapeChar {c written : Char} (member : written ∈ escapeChar c) :
    written ≠ '<' ∧ written ≠ '>' := by
  revert written
  unfold escapeChar
  split
  · simp
  · simp
  · simp
  · rename_i left right
    intro written member
    obtain rfl := List.mem_singleton.mp member
    exact ⟨left, right⟩

/-- Escaped text has nothing that begins or ends a tag. -/
theorem not_bracket_of_mem_escape {text : String} :
    ∀ c ∈ (escape text).toList, c ≠ '<' ∧ c ≠ '>' := by
  intro c member
  rw [escape, String.toList_ofList] at member
  obtain ⟨original, -, written⟩ := List.mem_flatMap.mp member
  exact mem_escapeChar written

/-- A text that can be the value of an attribute in double quotes. -/
def IsValue (text : String) : Prop :=
  ∀ c ∈ text.toList, c ≠ '"' ∧ c ≠ '<'

instance (text : String) : Decidable (IsValue text) :=
  List.decidableBAll _ text.toList

theorem isValue_escapeAttribute (text : String) : IsValue (escapeAttribute text) := by
  intro written member
  rw [escapeAttribute, String.toList_ofList] at member
  obtain ⟨c, -, spelled⟩ := List.mem_flatMap.mp member
  clear member
  unfold escapeAttributeChar at spelled
  split at spelled
  · exact (by decide : IsValue "&quot;") written spelled
  · rename_i other
    refine ⟨?_, (mem_escapeChar spelled).1⟩
    rintro rfl
    revert spelled
    unfold escapeChar
    split
    · decide
    · decide
    · decide
    · simpa using Ne.symm other

/-! Reading what is joined -/

/-- What is read from a place is read in front of anything. -/
theorem readFrom_append {place : Place} {markup : List Char} {tokens : List Token}
    (known : readFrom place markup = some tokens) (rest : List Char) :
    readFrom place (markup ++ rest) = (readFrom .outside rest).map (tokens ++ ·) := by
  induction markup generalizing place tokens with
  | nil =>
      cases place with
      | outside =>
          obtain rfl := Option.some.inj known
          simp
      | inside quote body => cases known
  | cons c markup ih =>
      cases place with
      | outside =>
          rw [List.cons_append]
          rw [readFrom] at known ⊢
          split at known
          · rename_i opens
            rw [if_pos opens]
            exact ih known
          · rename_i opens
            split at known
            · cases known
            · rename_i closes
              obtain ⟨others, found, rfl⟩ := Option.map_eq_some_iff.mp known
              rw [if_neg opens, if_neg closes, ih found, Option.map_map]
              rfl
      | inside quote body =>
          rw [List.cons_append]
          rw [readFrom] at known ⊢
          split at known
          · cases known
          · rename_i opens
            split at known
            · rename_i closes
              obtain ⟨others, found, rfl⟩ := Option.map_eq_some_iff.mp known
              rw [if_neg opens, if_pos closes, ih found, Option.map_map]
              rfl
            · rename_i closes
              rw [if_neg opens, if_neg closes]
              exact ih known

theorem read_append {first second : String} {front back : List Token}
    (readFirst : read first = some front) (readSecond : read second = some back) :
    read (first ++ second) = some (front ++ back) := by
  rw [read, String.toList_append, readFrom_append readFirst, ← read, readSecond, Option.map_some]

theorem read_content {text : String} (plain : ∀ c ∈ text.toList, c ≠ '<' ∧ c ≠ '>') :
    read text = some (content text) := by
  rw [read, content]
  revert plain
  induction text.toList with
  | nil => intro _; rfl
  | cons c rest ih =>
      intro plain
      obtain ⟨first, others⟩ := List.forall_mem_cons.mp plain
      rw [readFrom, if_neg first.1, if_neg first.2, ih others]
      rfl

theorem read_escape (text : String) : read (escape text) = some (content (escape text)) :=
  read_content not_bracket_of_mem_escape

theorem read_intercalate {separator : String} {gap : List Token} (between : read separator = some gap)
    {texts : List String} {tokens : List (List Token)}
    (each : List.Forall₂ (fun text tokens => read text = some tokens) texts tokens) :
    read (separator.intercalate texts) = some (gap.intercalate tokens) := by
  induction each with
  | nil => rfl
  | @cons text first texts others known more ih =>
      cases more with
      | nil => rwa [String.intercalate_singleton, List.intercalate_singleton]
      | cons =>
          rw [String.intercalate_cons_cons, List.intercalate_cons_cons]
          exact read_append (read_append known between) ih

/-- Every character of the markup is in the tokens, in order. -/
theorem source_of_readFrom {place : Place} {markup : List Char} {tokens : List Token}
    (known : readFrom place markup = some tokens) :
    (tokens.flatMap fun token => token.source.toList) = place.begun ++ markup := by
  induction markup generalizing place tokens with
  | nil =>
      cases place with
      | outside =>
          obtain rfl := Option.some.inj known
          rfl
      | inside quote body => cases known
  | cons c markup ih =>
      cases place with
      | outside =>
          rw [readFrom] at known
          split at known
          · rename_i opens
            rw [ih known, opens]
            rfl
          · split at known
            · cases known
            · obtain ⟨others, found, rfl⟩ := Option.map_eq_some_iff.mp known
              rw [List.flatMap_cons, ih found]
              simp [Token.source, Place.begun]
      | inside quote body =>
          rw [readFrom] at known
          split at known
          · cases known
          · split at known
            · rename_i closes
              obtain ⟨others, found, rfl⟩ := Option.map_eq_some_iff.mp known
              rw [List.flatMap_cons, ih found, closes.1]
              simp [Token.source, Place.begun]
            · rw [ih known]
              simp [Place.begun]

theorem source_of_read {markup : String} {tokens : List Token} (known : read markup = some tokens) :
    source tokens = markup := by
  rw [source, source_of_readFrom known, Place.begun, List.nil_append, String.ofList_toList]

/-! Tags -/

/-- A part of a tag that a reader passes with all quotes closed behind it. -/
def IsTagText (text : String) : Prop :=
  ∀ body rest, readFrom (.inside none body) (text.toList ++ rest) =
    readFrom (.inside none (body ++ text.toList)) rest

theorem IsTagText.append {first second : String} (isFirst : IsTagText first)
    (isSecond : IsTagText second) : IsTagText (first ++ second) := by
  intro body rest
  rw [String.toList_append, List.append_assoc, isFirst, isSecond, List.append_assoc]

/-- A text without brackets and quotes. -/
def IsBare (text : String) : Prop :=
  ∀ c ∈ text.toList, c ∉ ['<', '>', '"', '\'']

instance (text : String) : Decidable (IsBare text) :=
  List.decidableBAll _ text.toList

theorem IsBare.isTagText {text : String} (isBare : IsBare text) : IsTagText text := by
  unfold IsTagText
  revert isBare
  unfold IsBare
  induction text.toList with
  | nil => simp
  | cons c cs ih =>
      intro isBare body rest
      obtain ⟨first, others⟩ := List.forall_mem_cons.mp isBare
      simp only [List.mem_cons, List.not_mem_nil, or_false, not_or] at first
      rw [List.cons_append, readFrom, if_neg first.1, if_neg fun closes => first.2.1 closes.1,
        quoteAfter, if_neg (not_or.mpr first.2.2), ih others, List.append_assoc]
      rfl

theorem IsValue.isTagText_quoted {value : String} (isValue : IsValue value) :
    IsTagText ("\"" ++ value ++ "\"") := by
  intro body rest
  have inner : ∀ (cs body : List Char), (∀ c ∈ cs, c ≠ '"' ∧ c ≠ '<') →
      readFrom (.inside (some '"') body) (cs ++ '"' :: rest) =
        readFrom (.inside none (body ++ cs ++ ['"'])) rest := by
    intro cs
    induction cs with
    | nil =>
        intro body _
        rw [List.nil_append, readFrom, if_neg (by decide), if_neg (by decide)]
        simp [quoteAfter]
    | cons c cs ih =>
        intro body isValue
        obtain ⟨first, others⟩ := List.forall_mem_cons.mp isValue
        rw [List.cons_append, readFrom, if_neg first.2, if_neg (by simp), quoteAfter,
          if_neg first.1, ih _ others]
        simp
  have quote : ("\"" : String).toList = ['"'] := rfl
  rw [String.toList_append, String.toList_append, quote, List.append_assoc, List.append_assoc,
    List.singleton_append, List.singleton_append, readFrom, if_neg (by decide), if_neg (by decide)]
  refine (inner value.toList _ isValue).trans ?_
  simp

theorem read_tag {body : String} (isTagText : IsTagText body) :
    read ("<" ++ body ++ ">") = some [.tag body] := by
  have opening : ("<" : String).toList = ['<'] := rfl
  have closing : (">" : String).toList = ['>'] := rfl
  rw [read, String.toList_append, String.toList_append, opening, closing, List.append_assoc,
    List.singleton_append, readFrom, if_pos rfl, isTagText, List.nil_append, readFrom,
    if_neg (by decide), if_pos ⟨rfl, rfl⟩, String.ofList_toList]
  rfl

/-! What tokens are made of -/

@[simp] theorem names_append (front back : List Token) :
    names (front ++ back) = names front ++ names back :=
  List.filterMap_append

@[simp] theorem names_content (text : String) : names (content text) = [] := by
  simp [names, content, Token.name?]

@[simp] theorem names_tag (body : String) (rest : List Token) :
    names (.tag body :: rest) = tagName body :: names rest := rfl

@[simp] theorem tags_append (front back : List Token) :
    tags (front ++ back) = tags front ++ tags back :=
  List.filter_append ..

@[simp] theorem tags_content (text : String) : tags (content text) = [] := by
  simp [tags, content, Token.name?]

@[simp] theorem tags_tag (body : String) (rest : List Token) :
    tags (.tag body :: rest) = .tag body :: tags rest := rfl

@[simp] theorem textBefore_tag (body : String) (rest : List Token) :
    textBefore (.tag body :: rest) = [] := rfl

@[simp] theorem textBefore_content_append (text : String) (rest : List Token) :
    textBefore (content text ++ rest) = text.toList ++ textBefore rest := by
  rw [content]
  induction text.toList with
  | nil => rfl
  | cons c cs ih => rw [List.map_cons, List.cons_append, textBefore, ih, List.cons_append]

@[simp] theorem segments_tag (body : String) (rest : List Token) :
    segments (.tag body :: rest) = (body, textBefore rest) :: segments rest := rfl

@[simp] theorem segments_content_append (text : String) (rest : List Token) :
    segments (content text ++ rest) = segments rest := by
  rw [content]
  induction text.toList with
  | nil => rfl
  | cons c cs ih => rw [List.map_cons, List.cons_append, segments, ih]

section Said

variable {condition : String → Bool} {body : String} {rest : List Token}

@[simp] theorem saidAfter_content_append (condition : String → Bool) (text : String)
    (rest : List Token) :
    saidAfter condition (content text ++ rest) = saidAfter condition rest := by
  simp only [saidAfter, segments_content_append]

theorem saidAfter_tag (holds : condition body = true) :
    saidAfter condition (.tag body :: rest) =
      String.ofList (unescape (textBefore rest)) :: saidAfter condition rest := by
  simp [saidAfter, holds]

theorem saidAfter_other_tag (fails : condition body = false) :
    saidAfter condition (.tag body :: rest) = saidAfter condition rest := by
  simp [saidAfter, fails]

/-- An element with escaped text says that text. -/
theorem saidAfter_escape {ending : String} (holds : condition body = true) (text : String) :
    saidAfter condition (.tag body :: content (escape text) ++ .tag ending :: rest) =
      text :: saidAfter condition (.tag ending :: rest) := by
  rw [List.cons_append, saidAfter_tag holds, textBefore_content_append, textBefore_tag,
    List.append_nil, unescape_escape, String.ofList_toList, saidAfter_content_append]

end Said

end Jianpu.Text.Markup
