import Jianpu.Proofs.Json.Reals
import Jianpu.Proofs.Json.Strings

/-! A value reads back as it is written, but for its numbers: they become what their texts are
read as. Short whole numbers read back themselves. Whether binary64 numbers do is another matter,
since their texts are read to the nearest number. -/

set_option autoImplicit false

namespace Jianpu.Json

open Number (Amount)

mutual

/-- A condition on numbers, met by all numbers of a value. -/
def AllNumbers (condition : Amount → Prop) : Json → Prop
  | .number amount => condition amount
  | .array items => AllNumbersOfItems condition items
  | .object members => AllNumbersOfMembers condition members
  | _ => True

/-- A condition on numbers, met by all numbers of items. -/
def AllNumbersOfItems (condition : Amount → Prop) : List Json → Prop
  | [] => True
  | item :: rest => AllNumbers condition item ∧ AllNumbersOfItems condition rest

/-- A condition on numbers, met by all numbers of members. -/
def AllNumbersOfMembers (condition : Amount → Prop) : List (String × Json) → Prop
  | [] => True
  | (_, value) :: rest => AllNumbers condition value ∧ AllNumbersOfMembers condition rest

end

mutual

/-- A value with other numbers. -/
def mapNumbers (change : Amount → Amount) : Json → Json
  | .null => .null
  | .bool b => .bool b
  | .number amount => .number (change amount)
  | .string s => .string s
  | .array items => .array (mapNumbersOfItems change items)
  | .object members => .object (mapNumbersOfMembers change members)

/-- Items with other numbers. -/
def mapNumbersOfItems (change : Amount → Amount) : List Json → List Json
  | [] => []
  | item :: rest => mapNumbers change item :: mapNumbersOfItems change rest

/-- Members with other numbers. -/
def mapNumbersOfMembers (change : Amount → Amount) : List (String × Json) → List (String × Json)
  | [] => []
  | (name, value) :: rest => (name, mapNumbers change value) :: mapNumbersOfMembers change rest

end

theorem mapNumbersOfMembers_append (change : Amount → Amount)
    (front back : List (String × Json)) :
    mapNumbersOfMembers change (front ++ back) =
      mapNumbersOfMembers change front ++ mapNumbersOfMembers change back := by
  induction front with
  | nil => rfl
  | cons member front ih =>
      obtain ⟨name, value⟩ := member
      rw [List.cons_append, mapNumbersOfMembers, ih]
      rfl

/-- All numbers of a value are read as what a change makes of them. -/
abbrev AllReadAs (change : Amount → Amount) : Json → Prop :=
  AllNumbers fun amount => ReadsAs amount (change amount)

/-! What a written value starts with -/

/-- A text that starts with a value, and with neither white space nor a closing bracket. -/
def StartsValue (cs : List Char) : Prop :=
  ∃ c rest, cs = c :: rest ∧ isSpace c = false ∧ c ≠ ']' ∧ c ≠ '\x7d'

theorem StartsValue.append {cs : List Char} (starts : StartsValue cs) (rest : List Char) :
    StartsValue (cs ++ rest) := by
  obtain ⟨c, others, rfl, plain⟩ := starts
  exact ⟨c, others ++ rest, rfl, plain⟩

theorem StartsValue.skipSpace {cs : List Char} (starts : StartsValue cs) :
    skipSpace cs = cs := by
  obtain ⟨c, rest, rfl, noSpace, -⟩ := starts
  rw [Json.skipSpace, List.dropWhile_cons_of_neg (by simp [noSpace])]

/-- A number starts with a digit, with a minus or with one of two letters. -/
theorem number?_starts {cs rest : List Char} {amount : Amount}
    (read : number? cs = some (amount, rest)) :
    ∃ c more, cs = c :: more ∧ (c.isDigit = true ∨ c ∈ ['-', 'I', 'N']) := by
  cases cs with
  | nil => cases read
  | cons c more =>
      refine ⟨c, more, rfl, ?_⟩
      by_contra other
      simp only [List.mem_cons, List.not_mem_nil, or_false, not_or, Bool.not_eq_true] at other
      obtain ⟨noDigit, noMinus, noI, noN⟩ := other
      have refused : unsignedNumber? false (c :: more) = none := by
        simp [unsignedNumber?, asciiDigits, noDigit]
      rw [number?] at read
      · simp only [String.reduceToList, after?_of_ne (Ne.symm noI), after?_of_ne (Ne.symm noN),
          refused] at read
        cases read
      · intro _ start
        exact noMinus (List.cons.inj start).1

theorem endsNumeral_nil : EndsNumeral [] := by
  rintro _ ⟨⟩

theorem ReadsAs.starts {amount other : Amount} (reads : ReadsAs amount other) :
    ∃ c rest, (numberText amount).toList = c :: rest ∧
      (c.isDigit = true ∨ c ∈ ['-', 'I', 'N']) := by
  have read := reads [] endsNumeral_nil
  rw [List.append_nil] at read
  exact number?_starts read

/-- A character that starts a number is none that does not. -/
theorem ne_of_starts {c d : Char} (starts : c.isDigit = true ∨ c ∈ ['-', 'I', 'N'])
    (noDigit : d.isDigit = false) (other : d ∉ ['-', 'I', 'N']) : c ≠ d := by
  rintro rfl
  rcases starts with digit | mark
  · rw [noDigit] at digit
    cases digit
  · exact other mark

variable {change : Amount → Amount}

theorem startsValue_chars {value : Json} (read : AllReadAs change value) :
    StartsValue (chars value) := by
  cases value with
  | null => exact ⟨'n', "ull".toList, by simp [chars], by decide⟩
  | bool b =>
      cases b with
      | false => exact ⟨'f', "alse".toList, by simp [chars], by decide⟩
      | true => exact ⟨'t', "rue".toList, by simp [chars], by decide⟩
  | number amount =>
      obtain ⟨c, rest, spelled, starts⟩ := ReadsAs.starts read
      have other : ∀ d : Char, d.isDigit = false → d ∉ ['-', 'I', 'N'] → c ≠ d :=
        fun _ noDigit noMark => ne_of_starts starts noDigit noMark
      refine ⟨c, rest, spelled, ?_, other _ (by decide) (by decide), other _ (by decide) (by decide)⟩
      simp only [isSpace, Bool.or_eq_false_iff, beq_eq_false_iff_ne]
      refine ⟨⟨⟨?_, ?_⟩, ?_⟩, ?_⟩
      all_goals exact other _ (by decide) (by decide)
  | string s => exact ⟨'"', _, rfl, by decide⟩
  | array items => exact ⟨'[', _, rfl, by decide⟩
  | object members => exact ⟨'\x7b', _, rfl, by decide⟩

theorem startsValue_items {item : Json} (read : AllReadAs change item)
    (rest : List Json) : StartsValue (itemsChars (item :: rest)) := by
  cases rest with
  | nil => exact startsValue_chars read
  | cons => exact (startsValue_chars read).append _

/-! Reading a written value -/

theorem value?_number {amount other : Amount} {rest : List Char} (reads : ReadsAs amount other)
    (ends : EndsNumeral rest) (fuel : Nat) :
    value? (fuel + 1) ((numberText amount).toList ++ rest) = some (.number other, rest) := by
  obtain ⟨c, others, spelled, starts⟩ := reads.starts
  have known := reads rest ends
  rw [spelled, List.cons_append] at known ⊢
  have differs : ∀ d : Char, d.isDigit = false → d ∉ ['-', 'I', 'N'] → c ≠ d :=
    fun _ noDigit noMark => ne_of_starts starts noDigit noMark
  rw [value?, if_neg (differs _ (by decide) (by decide)),
    if_neg (differs _ (by decide) (by decide)), if_neg (differs _ (by decide) (by decide)),
    if_neg (differs _ (by decide) (by decide)), if_neg (differs _ (by decide) (by decide)),
    if_neg (differs _ (by decide) (by decide)), known]
  rfl

theorem value?_string (s : String) {fuel : Nat} (rest : List Char)
    (enough : (s.toList.flatMap escapedChar).length < fuel) :
    value? (fuel + 1) (stringChars s ++ rest) = some (.string s, rest) := by
  rw [stringChars, List.cons_append, List.cons_append, List.append_assoc, List.singleton_append,
    value?, if_pos rfl, stringBody?_escaped s.toList fuel rest enough]
  simp [String.ofList_toList]

theorem endsNumeral_cons {c : Char} (rest : List Char)
    (ends : c.isDigit = false ∧ c ≠ '.' ∧ c ≠ 'e' ∧ c ≠ 'E') : EndsNumeral (c :: rest) := by
  rintro _ ⟨⟩
  exact ends

theorem skipSpace_cons {c : Char} (rest : List Char) (noSpace : isSpace c = false) :
    skipSpace (c :: rest) = c :: rest := by
  rw [skipSpace, List.dropWhile_cons_of_neg (by simp [noSpace])]

theorem skipSpace_space (rest : List Char) : skipSpace (' ' :: rest) = skipSpace rest := by
  rw [skipSpace, List.dropWhile_cons_of_pos (by decide)]
  rfl

theorem value?_array {cs : List Char} (starts : StartsValue cs) (fuel : Nat) :
    value? (fuel + 1) ('[' :: cs) =
      (itemsFrom? fuel cs).map fun (items, remainder) => (.array items, remainder) := by
  rw [value?, if_neg (by decide), if_pos rfl, starts.skipSpace]
  obtain ⟨c, rest, rfl, -, notClosing, -⟩ := starts
  split
  · rename_i start
    obtain ⟨rfl, -⟩ := List.cons.inj start
    exact absurd rfl notClosing
  · cases itemsFrom? fuel (c :: rest) <;> rfl

theorem value?_object {cs : List Char} (starts : StartsValue cs) (fuel : Nat) :
    value? (fuel + 1) ('\x7b' :: cs) =
      (membersFrom? fuel cs).map fun (members, remainder) => (.object members, remainder) := by
  rw [value?, if_neg (by decide), if_neg (by decide), if_pos rfl, starts.skipSpace]
  obtain ⟨c, rest, rfl, -, -, notClosing⟩ := starts
  split
  · rename_i start
    obtain ⟨rfl, -⟩ := List.cons.inj start
    exact absurd rfl notClosing
  · cases membersFrom? fuel (c :: rest) <;> rfl

theorem itemsChars_cons_cons (item next : Json) (items : List Json) :
    itemsChars (item :: next :: items) =
      chars item ++ ',' :: ' ' :: itemsChars (next :: items) := by
  rw [itemsChars]
  exact List.cons_ne_nil next items

theorem membersChars_singleton (name : String) (value : Json) :
    membersChars [(name, value)] = stringChars name ++ ':' :: ' ' :: chars value := by
  rw [membersChars]

theorem membersChars_cons_cons (name : String) (value : Json) (next : String × Json)
    (members : List (String × Json)) :
    membersChars ((name, value) :: next :: members) =
      stringChars name ++ ':' :: ' ' :: chars value ++
        ',' :: ' ' :: membersChars (next :: members) := by
  rw [membersChars]
  exact List.cons_ne_nil next members

theorem startsValue_members (member : String × Json) (members : List (String × Json)) :
    StartsValue (membersChars (member :: members)) := by
  obtain ⟨name, value⟩ := member
  have quoted : StartsValue (stringChars name) := ⟨'"', _, rfl, by decide⟩
  cases members with
  | nil =>
      rw [membersChars_singleton]
      exact quoted.append _
  | cons next members =>
      rw [membersChars_cons_cons, List.append_assoc]
      exact quoted.append _

/-- A written member is read back, and what stands after it is looked at next. -/
theorem membersFrom?_member {name : String} {value found : Json} {fuel : Nat} {rest : List Char}
    (starts : StartsValue (chars value))
    (enough : (name.toList.flatMap escapedChar).length < fuel)
    (read : value? fuel (chars value ++ rest) = some (found, rest)) :
    membersFrom? (fuel + 1) (stringChars name ++ ':' :: ' ' :: (chars value ++ rest)) =
      match skipSpace rest with
      | '\x7d' :: remainder => some ([(name, found)], remainder)
      | ',' :: more =>
        (membersFrom? fuel (skipSpace more)).map fun (members, remainder) =>
          ((name, found) :: members, remainder)
      | _ => none := by
  have space : skipSpace (' ' :: (chars value ++ rest)) = chars value ++ rest := by
    rw [skipSpace_space, (starts.append rest).skipSpace]
  rw [stringChars, List.cons_append, List.cons_append, List.append_assoc, List.singleton_append,
    membersFrom?, stringBody?_escaped name.toList fuel _ enough]
  simp only [Option.bind_eq_bind, Option.bind_some,
    skipSpace_cons _ (by decide : isSpace ':' = false), space, read, String.ofList_toList,
    Option.pure_def]
  generalize skipSpace rest = next
  split
  · rfl
  · rename_i more
    change _ = (membersFrom? fuel (skipSpace more)).map _
    cases membersFrom? fuel (skipSpace more) <;> rfl
  · simp only

theorem length_stringChars (s : String) :
    (stringChars s).length = (s.toList.flatMap escapedChar).length + 2 := by
  simp [stringChars]

mutual

/-- A written value is read back, up to where it ends. -/
theorem value?_chars (value : Json) (readable : AllReadAs change value) (fuel : Nat)
    (enough : (chars value).length ≤ fuel) {rest : List Char} (ends : EndsNumeral rest) :
    value? fuel (chars value ++ rest) = some (value.mapNumbers change, rest) := by
  have nonempty : (chars value).length ≠ 0 := by
    obtain ⟨c, others, spelled, -⟩ := startsValue_chars readable
    rw [spelled]
    exact Nat.succ_ne_zero _
  -- A value costs one unit of fuel and at least one character, so its parts have enough left.
  obtain ⟨fuel, rfl⟩ := Nat.exists_eq_succ_of_ne_zero (by omega : fuel ≠ 0)
  match value with
  | .null => simp [chars, value?, after?, mapNumbers]
  | .bool true => simp [chars, value?, after?, mapNumbers]
  | .bool false => simp [chars, value?, after?, mapNumbers]
  | .number amount => exact value?_number readable ends fuel
  | .string s =>
      refine value?_string s rest ?_
      rw [chars, stringChars, List.cons_append, List.length_cons, List.length_append] at enough
      exact Nat.lt_of_succ_le (Nat.le_of_succ_le_succ enough)
  | .array [] =>
      simp [chars, itemsChars, value?, skipSpace, isSpace, mapNumbers, mapNumbersOfItems]
  | .array (item :: items) =>
      have starts := (startsValue_items readable.1 items).append (']' :: rest)
      rw [chars, List.cons_append, List.length_cons, List.length_append] at enough
      have read := itemsFrom?_chars item items readable fuel
        (Nat.lt_of_succ_le (Nat.le_of_succ_le_succ enough)) rest
      rw [chars, List.cons_append, List.cons_append, List.append_assoc, List.singleton_append,
        value?_array starts, read]
      rfl
  | .object [] =>
      simp [chars, membersChars, value?, skipSpace, isSpace, mapNumbers, mapNumbersOfMembers]
  | .object (member :: members) =>
      have starts := (startsValue_members member members).append ('\x7d' :: rest)
      rw [chars, List.cons_append, List.length_cons, List.length_append] at enough
      have read := membersFrom?_chars member members readable fuel
        (Nat.lt_of_succ_le (Nat.le_of_succ_le_succ enough)) rest
      rw [chars, List.cons_append, List.cons_append, List.append_assoc, List.singleton_append,
        value?_object starts, read]
      rfl

theorem itemsFrom?_chars (item : Json) (items : List Json)
    (readable : AllNumbersOfItems (fun amount => ReadsAs amount (change amount)) (item :: items))
    (fuel : Nat)
    (enough : (itemsChars (item :: items)).length < fuel) (rest : List Char) :
    itemsFrom? fuel (itemsChars (item :: items) ++ ']' :: rest) =
      some (mapNumbersOfItems change (item :: items), rest) := by
  obtain ⟨fuel, rfl⟩ := Nat.exists_eq_succ_of_ne_zero (by omega : fuel ≠ 0)
  obtain ⟨readableItem, readableItems⟩ := readable
  match items with
  | [] =>
      have read := value?_chars item readableItem fuel (Nat.le_of_lt_succ enough)
        (endsNumeral_cons rest (by decide : (']' : Char).isDigit = false ∧ _))
      rw [itemsChars, itemsFrom?, read]
      simp [skipSpace_cons rest (by decide : isSpace ']' = false), mapNumbersOfItems]
  | next :: items =>
      rw [itemsChars_cons_cons, List.length_append, List.length_cons, List.length_cons] at enough
      have starts := (startsValue_items readableItems.1 items).append (']' :: rest)
      have first := value?_chars item readableItem fuel (by omega)
        (endsNumeral_cons (' ' :: (itemsChars (next :: items) ++ ']' :: rest))
          (by decide : (',' : Char).isDigit = false ∧ _))
      have others := itemsFrom?_chars next items readableItems fuel (by omega) rest
      rw [itemsChars_cons_cons, List.append_assoc, List.cons_append, List.cons_append, itemsFrom?,
        first]
      simp [skipSpace_cons _ (by decide : isSpace ',' = false), skipSpace_space, starts.skipSpace,
        others, mapNumbersOfItems]

theorem membersFrom?_chars (member : String × Json) (members : List (String × Json))
    (readable : AllNumbersOfMembers (fun amount => ReadsAs amount (change amount))
      (member :: members)) (fuel : Nat)
    (enough : (membersChars (member :: members)).length < fuel) (rest : List Char) :
    membersFrom? fuel (membersChars (member :: members) ++ '\x7d' :: rest) =
      some (mapNumbersOfMembers change (member :: members), rest) := by
  obtain ⟨fuel, rfl⟩ := Nat.exists_eq_succ_of_ne_zero (by omega : fuel ≠ 0)
  obtain ⟨name, value⟩ := member
  obtain ⟨readableValue, readableMembers⟩ := readable
  have starts := startsValue_chars readableValue
  match members with
  | [] =>
      rw [membersChars_singleton, List.length_append, length_stringChars, List.length_cons,
        List.length_cons] at enough
      have read := value?_chars value readableValue fuel (by omega)
        (endsNumeral_cons rest (by decide : ('\x7d' : Char).isDigit = false ∧ _))
      rw [membersChars_singleton, List.append_assoc, List.cons_append, List.cons_append,
        membersFrom?_member starts (by omega) read,
        skipSpace_cons rest (by decide : isSpace '\x7d' = false)]
      rfl
  | next :: members =>
      rw [membersChars_cons_cons, List.length_append, List.length_append, length_stringChars,
        List.length_cons, List.length_cons, List.length_cons, List.length_cons] at enough
      have startsNext := (startsValue_members next members).append ('\x7d' :: rest)
      have read := value?_chars value readableValue fuel (by omega)
        (endsNumeral_cons (' ' :: (membersChars (next :: members) ++ '\x7d' :: rest))
          (by decide : (',' : Char).isDigit = false ∧ _))
      have others := membersFrom?_chars next members readableMembers fuel (by omega) rest
      have shape : membersChars ((name, value) :: next :: members) ++ '\x7d' :: rest =
          stringChars name ++ ':' :: ' ' :: (chars value ++
            ',' :: ' ' :: (membersChars (next :: members) ++ '\x7d' :: rest)) := by
        simp only [membersChars_cons_cons, List.append_assoc, List.cons_append]
      rw [shape, membersFrom?_member starts (by omega) read,
        skipSpace_cons _ (by decide : isSpace ',' = false)]
      simp only [skipSpace_space, startsNext.skipSpace, others, Option.map_some,
        mapNumbersOfMembers]

end

/-- A value is read back from its text, with its numbers as their texts are read. -/
theorem parse?_text_of_readAs {value : Json} (readable : AllReadAs change value) :
    parse? value.text = some (value.mapNumbers change) := by
  have read := value?_chars value readable (2 * (chars value).length + 2) (by omega)
    endsNumeral_nil
  rw [List.append_nil] at read
  simp only [parse?, text, String.toList_ofList, (startsValue_chars readable).skipSpace, read,
    Option.bind_eq_bind, Option.bind_some]
  rfl

/-! Values that stay as they are -/

mutual

theorem AllNumbers.imp {condition other : Amount → Prop}
    (each : ∀ amount, condition amount → other amount) {value : Json}
    (all : AllNumbers condition value) : AllNumbers other value := by
  match value with
  | .null | .bool _ | .string _ => trivial
  | .number amount => exact each amount all
  | .array items => exact AllNumbersOfItems.imp each all
  | .object members => exact AllNumbersOfMembers.imp each all

theorem AllNumbersOfItems.imp {condition other : Amount → Prop}
    (each : ∀ amount, condition amount → other amount) {items : List Json}
    (all : AllNumbersOfItems condition items) : AllNumbersOfItems other items := by
  match items with
  | [] => trivial
  | _ :: _ => exact ⟨AllNumbers.imp each all.1, AllNumbersOfItems.imp each all.2⟩

theorem AllNumbersOfMembers.imp {condition other : Amount → Prop}
    (each : ∀ amount, condition amount → other amount) {members : List (String × Json)}
    (all : AllNumbersOfMembers condition members) : AllNumbersOfMembers other members := by
  match members with
  | [] => trivial
  | (_, _) :: _ => exact ⟨AllNumbers.imp each all.1, AllNumbersOfMembers.imp each all.2⟩

end

mutual

theorem mapNumbers_id (value : Json) : value.mapNumbers id = value := by
  match value with
  | .null | .bool _ | .string _ | .number _ => rfl
  | .array items => rw [mapNumbers, mapNumbersOfItems_id]
  | .object members => rw [mapNumbers, mapNumbersOfMembers_id]

theorem mapNumbersOfItems_id (items : List Json) : mapNumbersOfItems id items = items := by
  match items with
  | [] => rfl
  | item :: items => rw [mapNumbersOfItems, mapNumbers_id, mapNumbersOfItems_id]

theorem mapNumbersOfMembers_id (members : List (String × Json)) :
    mapNumbersOfMembers id members = members := by
  match members with
  | [] => rfl
  | (name, value) :: members =>
      rw [mapNumbersOfMembers, mapNumbers_id, mapNumbersOfMembers_id]

end

theorem readsAs_of_readable {amount : Amount} (readable : IsReadable amount) :
    ReadsAs amount amount := by
  cases amount with
  | whole n => exact readsAs_whole readable
  | real => exact readable.elim

/-- A value whose numbers are readable is read back from its text. -/
theorem parse?_text {value : Json} (readable : AllNumbers IsReadable value) :
    parse? value.text = some value := by
  have read : AllReadAs id value := readable.imp fun _ => readsAs_of_readable
  rw [parse?_text_of_readAs read, mapNumbers_id]

end Jianpu.Json
