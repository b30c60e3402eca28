import Jianpu.Json.Reader

set_option autoImplicit false

/-!
How deep JSON nests. A reader that works in bounded space gives a text up where an array or an object
opens below its bound. It comes to that place only when nothing before it is wrong, so a text that is no
JSON may be given up too: when what stands before the place can be completed to a JSON text.
-/
namespace Jianpu.Json

mutual

/-- The number of arrays and objects around the innermost value, its own brackets included. -/
def depth : Json → Nat
  | .array items => itemsDepth items + 1
  | .object members => membersDepth members + 1
  | _ => 0

/-- The largest depth of items. -/
def itemsDepth : List Json → Nat
  | [] => 0
  | item :: rest => max (depth item) (itemsDepth rest)

/-- The largest depth of members. -/
def membersDepth : List (String × Json) → Nat
  | [] => 0
  | (_, value) :: rest => max (depth value) (membersDepth rest)

end

/-- What stands in front of the first bracket that opens below a depth, in reverse order, with the
brackets that would close what is open there. Brackets in strings do not count. -/
def beforeDepth? : (room : Nat) → (inString : Bool) → (before closing : List Char) → List Char →
    Option (List Char × List Char)
  | _, _, _, _, [] => none
  | room, true, before, closing, '\\' :: c :: rest =>
    beforeDepth? room true (c :: '\\' :: before) closing rest
  | room, true, before, closing, c :: rest =>
    beforeDepth? room (c != '"') (c :: before) closing rest
  | room, false, before, closing, c :: rest =>
    if c = '[' ∨ c = '\x7b' then
      match room with
      | 0 => some (before, closing)
      | room + 1 =>
        beforeDepth? room false (c :: before) ((if c = '[' then ']' else '\x7d') :: closing) rest
    else if c = ']' ∨ c = '\x7d' then
      beforeDepth? (room + 1) false (c :: before) closing.tail rest
    else beforeDepth? room (c == '"') (c :: before) closing rest

/-- True of a text in which an array or an object opens below a depth, where a value may stand and with
nothing wrong before it. -/
def opensBelow (limit : Nat) (text : String) : Bool :=
  match beforeDepth? limit false [] [] text.toList with
  | none => false
  | some (before, closing) =>
    (parse? (String.ofList (before.reverse ++ '[' :: ']' :: closing))).isSome

/-- True of a text that a reader bound to a depth gives up. -/
def isTooDeep (limit : Nat) (text : String) : Bool :=
  match parse? text with
  | some value => limit < depth value
  | none => opensBelow limit text

end Jianpu.Json
