import Jianpu.File.Path
import Jianpu.Json.Reader

set_option autoImplicit false

/-!
Where a database is. A name is the path of a file, or a locator that starts with `file:`, whose path may
hold octets in hexadecimal after percent signs and whose query may set how the file is opened. An empty
path and a name of its own stand for a database that is held for one connection only.

A locator is taken apart by its octets. They are written as the characters of the same numbers, in which
a word of ASCII letters reads as itself.
-/
namespace Jianpu

/-- How a database is opened. -/
inductive AccessMode where
  | readOnly
  | readWrite
  /-- A file that is missing is made. -/
  | create
  /-- No file is touched. -/
  | transient
  deriving Repr, DecidableEq

/-- The mode with a name. -/
def AccessMode.ofName? : String → Option AccessMode
  | "ro" => some .readOnly
  | "rw" => some .readWrite
  | "rwc" => some .create
  | "memory" => some .transient
  | _ => none

/-- What a mode allows: reading, writing too, or making files as well. A database without a file is
touched by none of it. -/
def AccessMode.rank : AccessMode → Nat
  | .readOnly => 1
  | .readWrite => 2
  | .create => 3
  | .transient => 0

/-- True of a mode that may be chosen where another one is set: it must not allow more. -/
def AccessMode.isWithin (chosen current : AccessMode) : Bool :=
  current = .transient || chosen.rank ≤ current.rank

/-- How the file of a database is opened. -/
structure FileAccess where
  mode : AccessMode := .create
  /-- Whether the file is taken for one that nobody changes. -/
  isFrozen : Bool := false
  /-- The file whose permissions a new file gets. -/
  likeFile : Option String := none
  deriving Repr, DecidableEq

/-- The place of a database. -/
inductive DatabaseLocation where
  /-- Held by the connection alone. -/
  | transient
  | file (path : String) (access : FileAccess)
  deriving Repr, DecidableEq

/-- Why a name is none of a database. -/
inductive LocationError where
  | refused (reason : String)
  /-- The words of the refusal are no text. -/
  | illegible (fault : Text.Utf8.Fault)

namespace DatabaseLocation

/-- The path that stands for a database without a file. -/
def inMemory : String := ":memory:"

/-- The words for a change of a database that is open for reading only. -/
def readOnlyRefusal : String := "attempt to write a readonly database"

/-! Locators. -/

/-- Octets as characters. -/
def rawOf (octets : List UInt8) : List Char :=
  octets.map fun octet => Char.ofNat octet.toNat

/-- The octets of characters that stand for octets. -/
def octetsOf (raw : List Char) : List UInt8 :=
  raw.map fun c => c.toNat.toUInt8

/-- Puts octets in place of percent signs with two hexadecimal digits. -/
def unescaped : List Char → List Char
  | [] => []
  | '%' :: high :: low :: rest =>
    match Json.hexValue? high, Json.hexValue? low with
    | some high, some low => Char.ofNat (16 * high + low) :: unescaped rest
    | _, _ => '%' :: unescaped (high :: low :: rest)
  | c :: rest => c :: unescaped rest
termination_by cs => cs.length

/-- A part of a locator without its escapes. An octet zero ends it. -/
def part (cs : List Char) : String :=
  String.ofList ((unescaped cs).takeWhile (· != '\x00'))

/-- The file name of a part. -/
def fileNameOf (part : String) : String :=
  FileName.ofOctets (octetsOf part.toList)

/-- Cuts a list at every occurrence of a character. -/
def cutAt (separator : Char) : List Char → List (List Char)
  | [] => [[]]
  | c :: rest =>
    if c = separator then [] :: cutAt separator rest
    else
      match cutAt separator rest with
      | [] => [[c]]
      | first :: others => (c :: first) :: others

/-- The names and values of a query; one without a name is passed over. -/
def settings (query : List Char) : List (String × String) :=
  ((cutAt '&' query).map fun setting =>
    (part (setting.takeWhile (· != '=')), part ((setting.dropWhile (· != '=')).drop 1))).filter
      fun setting => !setting.1.isEmpty

/-- The mode that a query sets, the last one of several, or the words of its refusal. One that allows
more than the one before it is refused. -/
def modeOf : (mode : AccessMode) → List (String × String) → Except String AccessMode
  | mode, [] => .ok mode
  | mode, (name, value) :: rest =>
    if name = "mode" then
      match AccessMode.ofName? value with
      | some chosen =>
        if chosen.isWithin mode then modeOf chosen rest
        else .error ("access mode not allowed: " ++ value)
      | none => .error ("no such access mode: " ++ value)
    else if name = "cache" ∧ value ≠ "shared" ∧ value ≠ "private" then
      .error ("no such cache mode: " ++ value)
    else modeOf mode rest

/-- The value of a whole number at the start of a text, in decimal or after `0x` in hexadecimal; zero
where there is none of 31 bits. -/
def smallNumber (cs : List Char) : Nat :=
  let value (base : Nat) (digits : List Nat) : Nat :=
    let total := digits.foldl (fun total digit => base * total + digit) 0
    if total < 0x80000000 then total else 0
  let hexDigits (cs : List Char) : List Nat :=
    (cs.takeWhile fun c => (Json.hexValue? c).isSome).filterMap Json.hexValue?
  match cs with
  | '0' :: x :: rest =>
    if (x = 'x' ∨ x = 'X') ∧ !(hexDigits rest).isEmpty then value 16 (hexDigits rest)
    else value 10 (hexDigits (cs.takeWhile Char.isDigit))
  | _ => value 10 (hexDigits (cs.takeWhile Char.isDigit))

/-- The truth of a value: a number that is not zero in its last eight bits, or a word of consent. -/
def isAffirmed (value : String) : Bool :=
  if value.toList.head?.any Char.isDigit then smallNumber value.toList % 256 != 0
  else ["on", "yes", "true"].contains (String.ofList (value.toList.map Char.toLower))

/-- The first value of a name. -/
def first? (query : List (String × String)) (name : String) : Option String :=
  (query.find? fun setting => setting.1 == name).map (·.2)

/-- The path of a locator after its authority, which is empty or the machine itself. -/
def afterAuthority : List Char → Except String (List Char)
  | '/' :: '/' :: rest =>
    let authority := String.ofList (rest.takeWhile (· != '/'))
    if authority.isEmpty ∨ authority = "localhost" then .ok (rest.dropWhile (· != '/'))
    else .error ("invalid uri authority: " ++ authority)
  | cs => .ok cs

/-- The drivers that keep a database in a file. They differ in how they lock it. -/
def fileDrivers : List String :=
  ["unix", "unix-none", "unix-dotfile", "unix-excl"]

/-- The driver that keeps a database in memory. -/
def memoryDriver : String := "memdb"

/-- True of a path that names no file. -/
def isFileless (path : String) : Bool :=
  path.isEmpty || path == inMemory

/-- The location that a path, a mode and a driver give. A database that is held by its connection alone
is of no use for reading only. -/
def ofSettings (path : String) (mode : AccessMode) (driver : String) (query : List (String × String)) :
    Except String DatabaseLocation :=
  let isFrozen := (first? query "immutable").any isAffirmed
  if isFileless path ∨ mode = .transient then
    if mode = .readOnly then .error readOnlyRefusal else .ok .transient
  else if driver = memoryDriver then
    if mode = .readOnly ∨ isFrozen then .error readOnlyRefusal else .ok .transient
  else
    .ok (.file (fileNameOf path)
      { mode, isFrozen, likeFile := (first? query "modeof").map fileNameOf })

/-- The location of a locator without its start, or the words of its refusal. The last driver of several
counts, and it has to be known. -/
def ofLocator (cs : List Char) : Except String DatabaseLocation := do
  let locator := (← afterAuthority cs).takeWhile (· != '#')
  let query := settings ((locator.dropWhile (· != '?')).drop 1)
  let mode ← modeOf .create query
  let driver := (first? query.reverse "vfs").getD "unix"
  if driver = memoryDriver ∨ fileDrivers.contains driver then
    ofSettings (part (locator.takeWhile (· != '?'))) mode driver query
  else .error ("no such vfs: " ++ driver)

/-- The refusal with words whose octets are written as characters. -/
def refusal (words : String) : LocationError :=
  match Text.Utf8.decode (octetsOf words.toList) with
  | .ok characters => .refused (String.ofList characters)
  | .error fault => .illegible fault

/-- The location of a name. -/
def ofName (name : String) : Except LocationError DatabaseLocation :=
  match Json.after? "file:".toList (rawOf (FileName.octets name)) with
  | some locator => (ofLocator locator).mapError refusal
  | none => .ok (if isFileless name then .transient else .file name {})

end DatabaseLocation

end Jianpu
