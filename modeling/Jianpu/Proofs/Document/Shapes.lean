import Jianpu.Proofs.Document.Envelope

/-! What a stored text is read as, told by its JSON value alone. Four cases that
exclude each other stand for the shapes that are tried one after the other, so no
block is lost where several of them fit. -/

set_option autoImplicit false

namespace Jianpu

open Number (Amount)

namespace Envelope

/-! What is stored -/

/-- A text or an object, which can stand for a block. -/
def IsBlockLike : Json → Prop
  | .string _ | .object _ => True
  | _ => False

/-- The values that stand for blocks: those of an array, or of the array of blocks
that an object has. -/
inductive Lists : Json → List Json → Prop where
  | array {items : List Json} : Lists (.array items) items
  | member {members : List (String × Json)} {items : List Json} :
      (Json.object members).get? "blocks" = some (.array items) → Lists (.object members) items

/-- The kind that a member gives: melody unless it says chords. -/
def kindOf : Option Json → BlockKind
  | some (.string name) => if name = "chords" then .chords else .melody
  | _ => .melody

/-- The content that a member gives, which is empty unless it is a text. -/
def contentOf : Option Json → String
  | some (.string content) => content
  | _ => ""

/-- The whole number that a member gives, if it is one. -/
def wholeOf : Option Json → Option Amount
  | some (.number (.whole n)) => some (.whole n)
  | _ => none

/-- The setting that a member gives: the standard one unless it is a number, and
for zero too. -/
def settingOf : Option Json → Amount
  | some (.number amount) => if amount.isZero then 20 else amount
  | _ => 20

/-- The block that a text or an object stands for. -/
def blockOf : Json → Block
  | .string content => ⟨.melody, content⟩
  | json => ⟨kindOf (json.get? "type"), contentOf (json.get? "content")⟩

/-- One block for each value, or an empty one of melody if there are none. -/
def blocksOf (items : List Json) : List Block :=
  if items.isEmpty then [⟨.melody, ""⟩] else items.map blockOf

def storedSetting (json : Json) (name : String) : Option Json :=
  (json.get? "settings").bind (Json.get? name)

/-- An object that states a known kind and a text. -/
def IsComplete (item : Json) : Prop :=
  ∃ name content, item.get? "type" = some (.string name) ∧ (name = "melody" ∨ name = "chords") ∧
    item.get? "content" = some (.string content)

/-- A value of the current shape: complete blocks, and numbers for both settings. -/
structure IsCurrent (json : Json) (items : List Json) (spacing scale : Amount) : Prop where
  listed : json.get? "blocks" = some (.array items)
  complete : ∀ item ∈ items, IsComplete item
  spacing : storedSetting json "horizontalSpacing" = some (.number spacing)
  scale : storedSetting json "verticalScale" = some (.number scale)

/-- What a stored text stands for. -/
inductive Reads (raw : String) : Envelope → Prop where
  /-- A text that is no JSON, or lists no blocks, or lists what can stand for none. -/
  | whole :
      (∀ json items, Json.parse? raw = some json → Lists json items →
        ∃ item ∈ items, ¬IsBlockLike item) →
      Reads raw ⟨[⟨.melody, raw⟩], ⟨20, 20⟩, none, none⟩
  | bare {items : List Json} :
      Json.parse? raw = some (.array items) → (∀ item ∈ items, IsBlockLike item) →
      Reads raw ⟨blocksOf items, ⟨20, 20⟩, none, none⟩
  | current {json : Json} {items : List Json} {spacing scale : Amount} :
      Json.parse? raw = some json → IsCurrent json items spacing scale →
      Reads raw ⟨blocksOf items, ⟨spacing, scale⟩, wholeOf (json.get? "keyIndex"),
        wholeOf (json.get? "tempoBPM")⟩
  | older {json : Json} {items : List Json} :
      Json.parse? raw = some json → json.get? "blocks" = some (.array items) →
      (∀ item ∈ items, IsBlockLike item) →
      (∀ spacing scale, ¬IsCurrent json items spacing scale) →
      Reads raw ⟨blocksOf items,
        ⟨settingOf ((storedSetting json "horizontalSpacing").or (storedSetting json "kerning")),
          settingOf (storedSetting json "verticalScale")⟩, none, none⟩

/-! Members -/

theorem kindOf_eq (stored : Option Json) :
    kindOf stored = ((stored.bind Json.string?).bind BlockKind.ofName?).getD .melody := by
  rcases stored with _ | json
  · rfl
  · cases json with
    | string name =>
        simp only [kindOf, Option.bind_some, Json.string?, BlockKind.ofName?]
        split
        · rename_i chords
          subst chords
          rfl
        · split <;> rfl
    | _ => rfl

theorem contentOf_eq (stored : Option Json) :
    contentOf stored = (stored.bind Json.string?).getD "" := by
  rcases stored with _ | json
  · rfl
  · cases json <;> rfl

theorem wholeOf_eq (stored : Option Json) :
    wholeOf stored = (stored.bind Json.int?).map .whole := by
  rcases stored with _ | json
  · rfl
  · cases json with
    | number amount => cases amount <;> rfl
    | _ => rfl

theorem settingOf_eq (stored : Option Json) : settingOf stored = settingOr 20 stored := by
  rcases stored with _ | json
  · rfl
  · cases json <;> rfl

theorem eq_number_of_amount? {stored : Option Json} {amount : Amount}
    (found : stored.bind Json.amount? = some amount) : stored = some (.number amount) := by
  obtain ⟨json, rfl, number⟩ := Option.bind_eq_some_iff.mp found
  cases json with
  | number given =>
      cases number
      rfl
  | _ => cases number

theorem eq_array_of_items? {stored : Option Json} {items : List Json}
    (found : stored.bind Json.items? = some items) : stored = some (.array items) := by
  obtain ⟨json, rfl, listed⟩ := Option.bind_eq_some_iff.mp found
  cases json with
  | array given =>
      cases listed
      rfl
  | _ => cases listed

/-! Blocks -/

theorem mapM_eq_map {α β : Type} {read? : α → Option β} {value : α → β} {items : List α}
    (each : ∀ item ∈ items, read? item = some (value item)) :
    items.mapM read? = some (items.map value) := by
  induction items with
  | nil => rfl
  | cons item items ih =>
      have first := each item List.mem_cons_self
      have others := ih fun other member => each other (List.mem_cons_of_mem item member)
      rw [List.mapM_cons, first, others]
      rfl

theorem mapM_eq_none {α β : Type} {read? : α → Option β} {items : List α}
    (missing : ∃ item ∈ items, read? item = none) : items.mapM read? = none := by
  obtain ⟨item, member, unread⟩ := missing
  cases read : items.mapM read? with
  | none => rfl
  | some results =>
      obtain ⟨front, behind, rfl⟩ := List.append_of_mem member
      rw [List.mapM_append, List.mapM_cons, unread] at read
      obtain ⟨_, -, read⟩ := Option.bind_eq_some_iff.mp read
      cases read

theorem blockOf_object (members : List (String × Json)) :
    blockOf (.object members) =
      ⟨kindOf ((Json.object members).get? "type"),
        contentOf ((Json.object members).get? "content")⟩ :=
  rfl

theorem lenientBlock?_of_blockLike {item : Json} (like : IsBlockLike item) :
    lenientBlock? item = some (blockOf item) := by
  cases item with
  | string content => rfl
  | object members =>
      rw [blockOf_object, kindOf_eq, contentOf_eq]
      rfl
  | _ => exact like.elim

theorem lenientBlock?_eq_none {item : Json} (unlike : ¬IsBlockLike item) :
    lenientBlock? item = none := by
  cases item with
  | string | object => exact absurd trivial unlike
  | _ => rfl

theorem IsComplete.blockLike {item : Json} (complete : IsComplete item) : IsBlockLike item := by
  obtain ⟨name, content, kind, -, -⟩ := complete
  cases item with
  | object => trivial
  | _ => cases kind

theorem known_of_name {name : String} {kind : BlockKind} :
    BlockKind.ofName? name = some kind ↔
      (name = "melody" ∨ name = "chords") ∧ kind = if name = "chords" then .chords else .melody := by
  unfold BlockKind.ofName?
  by_cases melody : name = "melody"
  · subst melody
    simp [eq_comm]
  · by_cases chords : name = "chords"
    · subst chords
      simp [eq_comm]
    · simp [melody, chords]

theorem strictBlock?_of_complete {item : Json} (complete : IsComplete item) :
    strictBlock? item = some (blockOf item) := by
  have like := lenientBlock?_of_blockLike complete.blockLike
  obtain ⟨name, content, kind, known, text⟩ := complete
  have named := known_of_name.mpr ⟨known, rfl⟩
  cases item with
  | object members =>
      rw [strictBlock?, kind, text]
      simp only [Json.string?, Option.bind_eq_bind, Option.bind_some, named]
      rw [blockOf_object, kind, text]
      rfl
  | _ => cases kind

theorem strictBlock?_eq_none {item : Json} (incomplete : ¬IsComplete item) :
    strictBlock? item = none := by
  cases read : strictBlock? item with
  | none => rfl
  | some block =>
      obtain ⟨kindJson, foundKind, read⟩ := Option.bind_eq_some_iff.mp read
      obtain ⟨name, textKind, read⟩ := Option.bind_eq_some_iff.mp read
      obtain ⟨kind, named, read⟩ := Option.bind_eq_some_iff.mp read
      obtain ⟨contentJson, foundContent, read⟩ := Option.bind_eq_some_iff.mp read
      obtain ⟨content, textContent, -⟩ := Option.bind_eq_some_iff.mp read
      have isText : ∀ {json : Json} {text : String}, json.string? = some text →
          json = .string text := by
        intro json text found
        cases json with
        | string => cases found; rfl
        | _ => cases found
      obtain rfl := isText textKind
      obtain rfl := isText textContent
      exact absurd ⟨name, content, foundKind, (known_of_name.mp named).1, foundContent⟩ incomplete

/-! Shapes -/

theorem current?_of_isCurrent {json : Json} {items : List Json} {spacing scale : Amount}
    (current : IsCurrent json items spacing scale) :
    current? json = some ⟨items.map blockOf, ⟨spacing, scale⟩, wholeOf (json.get? "keyIndex"),
      wholeOf (json.get? "tempoBPM")⟩ := by
  obtain ⟨listed, complete, spacing, scale⟩ := current
  obtain ⟨settings, found, spacing⟩ := Option.bind_eq_some_iff.mp spacing
  rw [storedSetting, found, Option.bind_some] at scale
  have blocks := mapM_eq_map fun item member => strictBlock?_of_complete (complete item member)
  simp only [current?, listed, found, spacing, scale, Json.items?, Json.amount?, blocks,
    Option.bind_eq_bind, Option.bind_some, wholeOf_eq]
  rfl

theorem current?_eq_none {json : Json}
    (outdated : ∀ items spacing scale, ¬IsCurrent json items spacing scale) :
    current? json = none := by
  cases read : current? json with
  | none => rfl
  | some envelope =>
      obtain ⟨itemsJson, foundItems, read⟩ := Option.bind_eq_some_iff.mp read
      obtain ⟨items, listed, read⟩ := Option.bind_eq_some_iff.mp read
      obtain ⟨settings, foundSettings, read⟩ := Option.bind_eq_some_iff.mp read
      obtain ⟨spacingJson, foundSpacing, read⟩ := Option.bind_eq_some_iff.mp read
      obtain ⟨spacing, readSpacing, read⟩ := Option.bind_eq_some_iff.mp read
      obtain ⟨scaleJson, foundScale, read⟩ := Option.bind_eq_some_iff.mp read
      obtain ⟨scale, readScale, read⟩ := Option.bind_eq_some_iff.mp read
      obtain ⟨blocks, readBlocks, -⟩ := Option.bind_eq_some_iff.mp read
      refine absurd ⟨?_, ?_, ?_, ?_⟩ (outdated items spacing scale)
      · exact eq_array_of_items? (Option.bind_eq_some_iff.mpr ⟨_, foundItems, listed⟩)
      · intro item member
        by_contra incomplete
        have unread := mapM_eq_none ⟨item, member, strictBlock?_eq_none incomplete⟩
        rw [unread] at readBlocks
        cases readBlocks
      · rw [storedSetting, foundSettings]
        exact eq_number_of_amount? (Option.bind_eq_some_iff.mpr ⟨_, foundSpacing, readSpacing⟩)
      · rw [storedSetting, foundSettings]
        exact eq_number_of_amount? (Option.bind_eq_some_iff.mpr ⟨_, foundScale, readScale⟩)

theorem lenientObject?_eq {json : Json} {items : List Json}
    (listed : json.get? "blocks" = some (.array items)) (like : ∀ item ∈ items, IsBlockLike item) :
    lenientObject? json = some ⟨items.map blockOf,
      ⟨settingOf ((storedSetting json "horizontalSpacing").or (storedSetting json "kerning")),
        settingOf (storedSetting json "verticalScale")⟩, none, none⟩ := by
  have blocks := mapM_eq_map fun item member => lenientBlock?_of_blockLike (like item member)
  simp only [lenientObject?, listed, Json.items?, blocks, Option.bind_eq_bind, Option.bind_some,
    settingOf_eq]
  rfl

theorem lenientArray?_eq {items : List Json} (like : ∀ item ∈ items, IsBlockLike item) :
    lenientArray? (.array items) = some ⟨items.map blockOf, ⟨20, 20⟩, none, none⟩ := by
  have blocks := mapM_eq_map fun item member => lenientBlock?_of_blockLike (like item member)
  simp only [lenientArray?, Json.items?, blocks, Option.bind_eq_bind, Option.bind_some]
  rfl

theorem mapM_lenientBlock?_eq_none {items : List Json}
    (unlike : ∃ item ∈ items, ¬IsBlockLike item) : items.mapM lenientBlock? = none := by
  obtain ⟨item, member, unlike⟩ := unlike
  exact mapM_eq_none ⟨item, member, lenientBlock?_eq_none unlike⟩

theorem lists_blocks {json : Json} {items : List Json}
    (listed : json.get? "blocks" = some (.array items)) : Lists json items := by
  cases json with
  | object members => exact .member listed
  | _ => cases listed

theorem current?_array (items : List Json) : current? (.array items) = none := by
  apply current?_eq_none
  intro others spacing scale current
  cases current.listed

theorem lenientObject?_array (items : List Json) : lenientObject? (.array items) = none := rfl

theorem lenientObject?_eq_none {json : Json}
    (unlike : ∀ items, json.get? "blocks" = some (.array items) →
      ∃ item ∈ items, ¬IsBlockLike item) : lenientObject? json = none := by
  cases read : lenientObject? json with
  | none => rfl
  | some envelope =>
      obtain ⟨itemsJson, foundItems, read⟩ := Option.bind_eq_some_iff.mp read
      obtain ⟨items, listed, read⟩ := Option.bind_eq_some_iff.mp read
      obtain ⟨blocks, readBlocks, -⟩ := Option.bind_eq_some_iff.mp read
      have found := eq_array_of_items? (Option.bind_eq_some_iff.mpr ⟨_, foundItems, listed⟩)
      rw [mapM_lenientBlock?_eq_none (unlike items found)] at readBlocks
      cases readBlocks

theorem lenientArray?_eq_none {json : Json}
    (unlike : ∀ items, json = .array items → ∃ item ∈ items, ¬IsBlockLike item) :
    lenientArray? json = none := by
  cases json with
  | array items =>
      have unread := mapM_lenientBlock?_eq_none (unlike items rfl)
      simp only [lenientArray?, Json.items?, unread, Option.bind_eq_bind, Option.bind_some,
        Option.bind_none]
  | _ => rfl

/-- A value that lists no blocks, or lists what can stand for none, has none of the shapes. -/
theorem no_shape {json : Json}
    (unlike : ∀ items, Lists json items → ∃ item ∈ items, ¬IsBlockLike item) :
    current? json = none ∧ lenientObject? json = none ∧ lenientArray? json = none := by
  refine ⟨current?_eq_none ?_, lenientObject?_eq_none ?_, lenientArray?_eq_none ?_⟩
  · intro items spacing scale current
    obtain ⟨item, member, notBlock⟩ := unlike items (lists_blocks current.listed)
    exact notBlock (current.complete item member).blockLike
  · intro items listed
    exact unlike items (lists_blocks listed)
  · intro items same
    subst same
    exact unlike items .array

/-! Reading -/

theorem withBlock_eq (items : List Json) (settings : Settings Amount)
    (keyIndex tempo : Option Amount) :
    (if (items.map blockOf).isEmpty then
      ({ blocks := [{}], settings, keyIndex, tempo } : Envelope)
      else ⟨items.map blockOf, settings, keyIndex, tempo⟩) =
      ⟨blocksOf items, settings, keyIndex, tempo⟩ := by
  cases items <;> rfl

theorem decode_of_reads {raw : String} {envelope : Envelope} (reads : Reads raw envelope) :
    decode raw = envelope := by
  cases reads with
  | whole unlike =>
      cases parsed : Json.parse? raw with
      | none => simp only [decode, parsed]; rfl
      | some json =>
          obtain ⟨outdated, noObject, noArray⟩ := no_shape (unlike json · parsed)
          simp only [decode, parsed, outdated, noObject, noArray, Option.or_none]
          rfl
  | bare parsed like =>
      simp only [decode, parsed, current?_array, lenientObject?_array, lenientArray?_eq like,
        Option.or_none, Option.none_or]
      exact withBlock_eq _ _ _ _
  | current parsed isCurrent =>
      simp only [decode, parsed, current?_of_isCurrent isCurrent, Option.some_or]
      exact withBlock_eq _ _ _ _
  | older parsed listed like outdated =>
      have noCurrent := current?_eq_none fun others spacing scale current => by
        have same := current.listed.symm.trans listed
        cases same
        exact outdated spacing scale current
      simp only [decode, parsed, noCurrent, lenientObject?_eq listed like, Option.none_or,
        Option.some_or]
      exact withBlock_eq _ _ _ _

/-- Every text stands for something. -/
theorem exists_reads (raw : String) : ∃ envelope, Reads raw envelope := by
  by_cases lists : ∃ json items, Json.parse? raw = some json ∧ Lists json items ∧
      ∀ item ∈ items, IsBlockLike item
  · obtain ⟨json, items, parsed, lists, like⟩ := lists
    cases lists with
    | array => exact ⟨_, .bare parsed like⟩
    | @member members _ listed =>
        by_cases current : ∃ spacing scale, IsCurrent (.object members) items spacing scale
        · obtain ⟨spacing, scale, current⟩ := current
          exact ⟨_, .current parsed current⟩
        · exact ⟨_, .older parsed listed like fun spacing scale isCurrent =>
            current ⟨spacing, scale, isCurrent⟩⟩
  · refine ⟨_, .whole ?_⟩
    intro json items parsed listed
    by_contra like
    push Not at like
    exact lists ⟨json, items, parsed, listed, like⟩

/-- A text that is not nested too deeply is always read, as what it stands for and
as nothing else. -/
theorem decode?_keeps_content (reach : Reach) (raw : String)
    (shallow : Json.isTooDeep reach.depth raw = false) :
    ∃ envelope, decode? reach raw = some envelope ∧
      ∀ other, Reads raw other ↔ other = envelope := by
  have read : decode? reach raw = some (decode raw) := by
    rw [decode?, shallow]
    rfl
  refine ⟨decode raw, read, ?_⟩
  intro other
  constructor
  · intro reads
    exact (decode_of_reads reads).symm
  · rintro rfl
    obtain ⟨envelope, reads⟩ := exists_reads raw
    rwa [decode_of_reads reads]

/-- A value of an older shape: one of its blocks is a bare text. -/
def mixed : Json :=
  .object
    [("blocks", .array [.string "1 2", .object [("type", .string "chords")]]),
      ("settings", .object [("kerning", .int 0), ("verticalScale", .int 5)]),
      ("keyIndex", .int 3)]

/-- In an older shape zero is no spacing, and the key does not count. -/
theorem decode?_keeps_content_of_mixed :
    Json.isTooDeep Reach.usual.depth mixed.text = false ∧
      decode? .usual mixed.text = some ⟨[⟨.melody, "1 2"⟩, ⟨.chords, ""⟩], ⟨20, 5⟩, none, none⟩ := by
  have parsed : Json.parse? mixed.text = some mixed := by
    apply Json.parse?_text
    refine ⟨⟨trivial, ⟨trivial, trivial⟩, trivial⟩, ⟨?_, ?_, trivial⟩, ?_, trivial⟩
    · exact (by decide : Json.IsShort 0)
    · exact (by decide : Json.IsShort 5)
    · exact (by decide : Json.IsShort 3)
  have shallow : Json.isTooDeep Reach.usual.depth mixed.text = false := by
    rw [Json.isTooDeep, parsed]
    rfl
  obtain ⟨envelope, read, unique⟩ := decode?_keeps_content .usual mixed.text shallow
  refine ⟨shallow, ?_⟩
  rw [read, ← (unique _).mp (.older parsed rfl ?_ ?_)]
  · rfl
  · simp [IsBlockLike]
  · intro spacing scale current
    obtain ⟨name, content, kind, -, -⟩ := current.complete (.string "1 2") List.mem_cons_self
    cases kind

/-! Depth -/

/-- An array in which arrays are nested to a depth. -/
def nested : Nat → Json
  | 0 => .array []
  | depth + 1 => .array [nested depth]

theorem depth_nested (depth : Nat) : Json.depth (nested depth) = depth + 1 := by
  induction depth with
  | zero => rfl
  | succ depth ih => simp [nested, Json.depth, Json.itemsDepth, ih]

theorem allNumbers_nested (condition : Amount → Prop) (depth : Nat) :
    Json.AllNumbers condition (nested depth) := by
  induction depth with
  | zero => trivial
  | succ depth ih => exact ⟨ih, trivial⟩

theorem parse?_nested (depth : Nat) : Json.parse? (nested depth).text = some (nested depth) :=
  Json.parse?_text (allNumbers_nested Json.IsReadable depth)

theorem decode?_nested {reach : Reach} {depth : Nat} (deep : reach.depth ≤ depth) :
    decode? reach (nested depth).text = none := by
  have below : reach.depth < Json.depth (nested depth) := by
    rw [depth_nested]
    exact Nat.lt_succ_of_le deep
  simp [decode?, Json.isTooDeep, parse?_nested, below]

/-- Arrays that hold nothing but arrays stand for no blocks, but are given up where
they should be kept whole. -/
theorem decode?_loses_nested :
    Reads (nested 1499).text ⟨[⟨.melody, (nested 1499).text⟩], ⟨20, 20⟩, none, none⟩ ∧
      decode? .usual (nested 1499).text = none := by
  refine ⟨.whole ?_, decode?_nested (by decide)⟩
  intro json items parsed listed
  rw [parse?_nested] at parsed
  cases parsed
  cases listed
  exact ⟨nested 1498, List.mem_singleton_self _, id⟩

end Envelope

end Jianpu
