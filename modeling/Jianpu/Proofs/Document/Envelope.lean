import Jianpu.Document.Envelope
import Jianpu.Proofs.Json.ReadNumbers

/-! Stored documents read back as they are written. The current shape is tried
first and fits every text that is written, so the older shapes never get at it;
what the older shapes make of a text can be written in the current one. -/

set_option autoImplicit false

namespace Jianpu.Envelope

open Json (AllNumbers IsReadable IsShort IsShortIfWhole)
open Number (Amount)

/-- An envelope with blocks, all of known kinds, and with a short whole key and
tempo if any. The settings meet a condition of their own. -/
structure IsRegular (condition : Amount → Prop) (envelope : Envelope) : Prop where
  someBlock : envelope.blocks ≠ []
  knownKinds : ∀ block ∈ envelope.blocks, block.kind = .melody ∨ block.kind = .chords
  spacing : condition envelope.settings.spacing
  scale : condition envelope.settings.scale
  keyIndex : ∀ index ∈ envelope.keyIndex, IsReadable index
  tempo : ∀ tempo ∈ envelope.tempo, IsReadable tempo

/-- An envelope that is written without loss: its settings are short whole numbers. -/
abbrev IsStorable : Envelope → Prop :=
  IsRegular IsReadable

/-! Writing -/

theorem ofName?_name {kind : BlockKind} (known : kind = .melody ∨ kind = .chords) :
    BlockKind.ofName? kind.name = some kind := by
  rcases known with rfl | rfl <;> decide

theorem strictBlock?_blockJson {block : Block}
    (known : block.kind = .melody ∨ block.kind = .chords) :
    strictBlock? (blockJson block) = some block := by
  simp [strictBlock?, blockJson, Json.get?, Json.string?, ofName?_name known]

theorem mapM_strictBlock? {blocks : List Block}
    (known : ∀ block ∈ blocks, block.kind = .melody ∨ block.kind = .chords) :
    (blocks.map blockJson).mapM strictBlock? = some blocks := by
  induction blocks with
  | nil => rfl
  | cons block blocks ih =>
      have first := strictBlock?_blockJson (known block List.mem_cons_self)
      have others := ih fun other member => known other (List.mem_cons_of_mem block member)
      rw [List.map_cons, List.mapM_cons, first, others]
      rfl

section

variable (envelope : Envelope)

theorem get?_blocks :
    envelope.toJson.get? "blocks" = some (.array (envelope.blocks.map blockJson)) := by
  unfold toJson
  cases envelope.keyIndex <;> cases envelope.tempo <;> simp [Json.get?]

theorem get?_settings :
    envelope.toJson.get? "settings" = some (.object
      [("horizontalSpacing", .number envelope.settings.spacing),
        ("verticalScale", .number envelope.settings.scale)]) := by
  unfold toJson
  cases envelope.keyIndex <;> cases envelope.tempo <;> simp [Json.get?]

theorem get?_keyIndex :
    envelope.toJson.get? "keyIndex" = envelope.keyIndex.map Json.number := by
  unfold toJson
  cases envelope.keyIndex <;> cases envelope.tempo <;> simp [Json.get?]

theorem get?_tempo : envelope.toJson.get? "tempoBPM" = envelope.tempo.map Json.number := by
  unfold toJson
  cases envelope.keyIndex <;> cases envelope.tempo <;> simp [Json.get?]

end

theorem whole_of_stored {stored : Option Amount} (readable : ∀ amount ∈ stored, IsReadable amount) :
    ((stored.map Json.number).bind Json.int?).map .whole = stored := by
  cases stored with
  | none => rfl
  | some amount =>
      cases amount with
      | whole => rfl
      | real x => exact (readable (.real x) rfl).elim

theorem allNumbers_blocks (condition : Amount → Prop) (blocks : List Block) :
    Json.AllNumbersOfItems condition (blocks.map blockJson) := by
  rw [Json.allNumbersOfItems_iff]
  intro item member
  obtain ⟨block, -, rfl⟩ := List.mem_map.mp member
  exact ⟨trivial, trivial, trivial⟩

theorem depth_blocks (blocks : List Block) : Json.itemsDepth (blocks.map blockJson) ≤ 1 := by
  induction blocks with
  | nil => decide
  | cons block blocks ih =>
      have one : Json.depth (blockJson block) = 1 := by
        simp [blockJson, Json.depth, Json.membersDepth]
      rw [List.map_cons, Json.itemsDepth, one]
      exact Nat.max_le.mpr ⟨le_rfl, ih⟩

theorem depth_toJson (envelope : Envelope) : Json.depth envelope.toJson ≤ 3 := by
  have inside := depth_blocks envelope.blocks
  unfold toJson
  cases envelope.keyIndex <;> cases envelope.tempo <;>
    simp [Json.depth, Json.membersDepth] <;> omega

/-- An envelope with its settings as their texts are read. -/
def reread (envelope : Envelope) : Envelope :=
  { envelope with
    settings := ⟨Json.reread envelope.settings.spacing, Json.reread envelope.settings.scale⟩ }

theorem reread_of_readable {envelope : Envelope} (spacing : IsReadable envelope.settings.spacing)
    (scale : IsReadable envelope.settings.scale) : envelope.reread = envelope := by
  rw [reread, Json.reread_of_readable spacing, Json.reread_of_readable scale]

theorem mapNumbers_blocks (change : Amount → Amount) (blocks : List Block) :
    Json.mapNumbersOfItems change (blocks.map blockJson) = blocks.map blockJson := by
  induction blocks with
  | nil => rfl
  | cons block blocks ih =>
      rw [List.map_cons, Json.mapNumbersOfItems, ih]
      rfl

section Written

variable {envelope : Envelope}
  (knownKinds : ∀ block ∈ envelope.blocks, block.kind = .melody ∨ block.kind = .chords)
  (keyIndex : ∀ index ∈ envelope.keyIndex, IsReadable index)
  (tempo : ∀ tempo ∈ envelope.tempo, IsReadable tempo)

include keyIndex tempo

include knownKinds in
/-- What is written has the current shape, and is read in it. -/
theorem current?_toJson : current? envelope.toJson = some envelope := by
  simp only [current?, get?_blocks, get?_settings, get?_keyIndex, get?_tempo, Json.items?,
    Option.bind_eq_bind, Option.bind_some, mapM_strictBlock? knownKinds,
    whole_of_stored keyIndex, whole_of_stored tempo]
  simp [Json.get?, Json.amount?]

theorem mapNumbers_toJson : envelope.toJson.mapNumbers Json.reread = envelope.reread.toJson := by
  obtain ⟨blocks, settings, storedKey, storedTempo⟩ := envelope
  have same : ∀ {stored : Option Amount}, (∀ amount ∈ stored, IsReadable amount) → ∀ name : String,
      Json.mapNumbersOfMembers Json.reread
        (stored.map fun amount => (name, Json.number amount)).toList =
        (stored.map fun amount => (name, Json.number amount)).toList := by
    intro stored readable name
    cases stored with
    | none => rfl
    | some amount =>
        simp [Json.mapNumbersOfMembers, Json.mapNumbers,
          Json.reread_of_readable (readable amount rfl)]
  simp only [toJson, Json.mapNumbers, Json.mapNumbersOfMembers_append, same keyIndex, same tempo,
    Json.mapNumbersOfMembers, mapNumbers_blocks, reread]

variable (spacing : IsShortIfWhole envelope.settings.spacing)
  (scale : IsShortIfWhole envelope.settings.scale)

include spacing scale

theorem allReadAs_toJson : Json.AllReadAs Json.reread envelope.toJson := by
  have blocks := allNumbers_blocks (fun amount => Json.ReadsAs amount (Json.reread amount))
    envelope.blocks
  refine Json.allNumbersOfMembers_iff.mpr ?_
  intro member present
  simp only [List.mem_append, List.mem_cons, List.not_mem_nil, or_false, Option.mem_toList,
    Option.map_eq_some_iff] at present
  rcases present with ((rfl | rfl) | ⟨index, given, rfl⟩) | ⟨beats, given, rfl⟩
  · exact blocks
  · exact ⟨Json.readsAs_reread spacing, Json.readsAs_reread scale, trivial⟩
  · exact Json.readsAs_reread (Json.shortIfWhole_of_readable (keyIndex index given))
  · exact Json.readsAs_reread (Json.shortIfWhole_of_readable (tempo beats given))

include knownKinds

/-- What is written is read as it was, but for a block in place of none, and for settings that
are binary64 numbers: those are as their texts are read. -/
theorem decode?_encode_of_short (reach : Reach) :
    decode? reach envelope.encode =
      some (if envelope.blocks.isEmpty then { envelope.reread with blocks := [{}] }
        else envelope.reread) := by
  have read := Json.parse?_text_of_readAs (allReadAs_toJson keyIndex tempo spacing scale)
  rw [mapNumbers_toJson keyIndex tempo] at read
  have shallow : ¬ reach.depth < Json.depth envelope.reread.toJson :=
    Nat.not_lt.mpr (le_trans (depth_toJson envelope.reread) reach.coversDocuments)
  have found : current? envelope.reread.toJson = some envelope.reread :=
    current?_toJson knownKinds keyIndex tempo
  simp only [decode?, Json.isTooDeep, decode, encode, read, shallow, decide_false, found,
    Option.some_or, Bool.false_eq_true, ↓reduceIte]
  rfl

end Written

/-- What is written is read as it was, but for a block in place of none. -/
theorem decode?_encode_of_known {envelope : Envelope}
    (knownKinds : ∀ block ∈ envelope.blocks, block.kind = .melody ∨ block.kind = .chords)
    (spacing : IsReadable envelope.settings.spacing) (scale : IsReadable envelope.settings.scale)
    (keyIndex : ∀ index ∈ envelope.keyIndex, IsReadable index)
    (tempo : ∀ tempo ∈ envelope.tempo, IsReadable tempo) (reach : Reach) :
    decode? reach envelope.encode =
      some (if envelope.blocks.isEmpty then { envelope with blocks := [{}] } else envelope) := by
  rw [decode?_encode_of_short knownKinds keyIndex tempo (Json.shortIfWhole_of_readable spacing)
    (Json.shortIfWhole_of_readable scale), reread_of_readable spacing scale]

/-- A regular envelope is read back as it was written, but for its settings. -/
theorem decode?_encode_of_regular {envelope : Envelope} (regular : IsRegular IsShortIfWhole envelope)
    (reach : Reach) : decode? reach envelope.encode = some envelope.reread := by
  have blocks : envelope.blocks.isEmpty = false := by
    simpa using regular.someBlock
  rw [decode?_encode_of_short regular.knownKinds regular.keyIndex regular.tempo regular.spacing
    regular.scale, blocks]
  rfl

theorem decode?_encode_of_storable {envelope : Envelope} (storable : envelope.IsStorable)
    (reach : Reach) : decode? reach envelope.encode = some envelope := by
  have blocks : envelope.blocks.isEmpty = false := by
    simpa using storable.someBlock
  rw [decode?_encode_of_known storable.knownKinds storable.spacing storable.scale
    storable.keyIndex storable.tempo, blocks]
  rfl

/-! Reading -/

theorem known_of_ofName? {name : String} {kind : BlockKind}
    (found : BlockKind.ofName? name = some kind) : kind = .melody ∨ kind = .chords := by
  unfold BlockKind.ofName? at found
  split at found
  · cases found
    exact .inl rfl
  · split at found
    · cases found
      exact .inr rfl
    · cases found

theorem known_of_strictBlock? {json : Json} {block : Block}
    (read : strictBlock? json = some block) : block.kind = .melody ∨ block.kind = .chords := by
  obtain ⟨_, -, read⟩ := Option.bind_eq_some_iff.mp read
  obtain ⟨name, -, read⟩ := Option.bind_eq_some_iff.mp read
  obtain ⟨kind, named, read⟩ := Option.bind_eq_some_iff.mp read
  obtain ⟨_, -, read⟩ := Option.bind_eq_some_iff.mp read
  obtain ⟨content, -, made⟩ := Option.bind_eq_some_iff.mp read
  cases made
  exact known_of_ofName? named

theorem known_of_lenientBlock? {json : Json} {block : Block}
    (read : lenientBlock? json = some block) : block.kind = .melody ∨ block.kind = .chords := by
  unfold lenientBlock? at read
  split at read
  · cases read
    exact .inl rfl
  · cases read
    dsimp only
    cases named : (((Json.object _).get? "type").bind Json.string?).bind BlockKind.ofName? with
    | none => exact .inl rfl
    | some kind =>
        obtain ⟨name, -, found⟩ := Option.bind_eq_some_iff.mp named
        exact known_of_ofName? found
  · cases read

theorem forall_of_mapM {α β : Type} {read? : α → Option β} {good : β → Prop}
    (each : ∀ {item : α} {result : β}, read? item = some result → good result)
    {items : List α} {results : List β} (read : items.mapM read? = some results) :
    ∀ result ∈ results, good result := by
  induction items generalizing results with
  | nil =>
      cases read
      simp
  | cons item items ih =>
      rw [List.mapM_cons] at read
      obtain ⟨first, readFirst, read⟩ := Option.bind_eq_some_iff.mp read
      obtain ⟨others, readOthers, made⟩ := Option.bind_eq_some_iff.mp read
      cases made
      exact List.forall_mem_cons.mpr ⟨each readFirst, ih readOthers⟩

/-- An envelope without blocks is given one before it is used. -/
theorem regular_withBlock {condition : Amount → Prop} {envelope : Envelope}
    (knownKinds : ∀ block ∈ envelope.blocks, block.kind = .melody ∨ block.kind = .chords)
    (spacing : condition envelope.settings.spacing) (scale : condition envelope.settings.scale)
    (keyIndex : ∀ index ∈ envelope.keyIndex, IsReadable index)
    (tempo : ∀ tempo ∈ envelope.tempo, IsReadable tempo) :
    IsRegular condition
      (if envelope.blocks.isEmpty then { envelope with blocks := [{}] } else envelope) := by
  by_cases empty : envelope.blocks.isEmpty
  · rw [if_pos empty]
    exact ⟨List.cons_ne_nil _ _, by simp, spacing, scale, keyIndex, tempo⟩
  · rw [if_neg empty]
    exact ⟨by simpa using empty, knownKinds, spacing, scale, keyIndex, tempo⟩

theorem short_amount {json : Json} {amount : Amount} (short : AllNumbers IsShortIfWhole json)
    (found : json.amount? = some amount) : IsShortIfWhole amount := by
  cases json with
  | number => 
      cases found
      exact short
  | _ => cases found

theorem readable_taken {json : Json} (short : AllNumbers IsShortIfWhole json) (name : String) :
    ∀ amount ∈ ((json.get? name).bind Json.int?).map Amount.whole, IsReadable amount := by
  intro amount taken
  obtain ⟨n, whole, rfl⟩ := Option.map_eq_some_iff.mp taken
  obtain ⟨member, found, number⟩ := Option.bind_eq_some_iff.mp whole
  have shortMember := short.get? found
  cases member with
  | number amount =>
      cases amount with
      | whole m =>
          cases number
          exact shortMember n rfl
      | real => cases number
  | _ => cases number

theorem standard_short : IsShortIfWhole (.whole 20) := by
  rintro n ⟨⟩
  decide

theorem short_settingOr {stored : Option Json}
    (short : ∀ json ∈ stored, AllNumbers IsShortIfWhole json) :
    IsShortIfWhole (settingOr (.whole 20) stored) := by
  unfold settingOr
  split
  · rename_i amount given
    obtain ⟨json, found, number⟩ := Option.bind_eq_some_iff.mp given
    split
    · exact standard_short
    · exact short_amount (short json found) number
  · exact standard_short

theorem regular_of_current? {json : Json} {envelope : Envelope}
    (short : AllNumbers IsShortIfWhole json) (read : current? json = some envelope) :
    IsRegular IsShortIfWhole
      (if envelope.blocks.isEmpty then { envelope with blocks := [{}] } else envelope) := by
  obtain ⟨_, -, read⟩ := Option.bind_eq_some_iff.mp read
  obtain ⟨items, -, read⟩ := Option.bind_eq_some_iff.mp read
  obtain ⟨settings, foundSettings, read⟩ := Option.bind_eq_some_iff.mp read
  obtain ⟨spacingJson, foundSpacing, read⟩ := Option.bind_eq_some_iff.mp read
  obtain ⟨spacing, readSpacing, read⟩ := Option.bind_eq_some_iff.mp read
  obtain ⟨scaleJson, foundScale, read⟩ := Option.bind_eq_some_iff.mp read
  obtain ⟨scale, readScale, read⟩ := Option.bind_eq_some_iff.mp read
  obtain ⟨blocks, readBlocks, made⟩ := Option.bind_eq_some_iff.mp read
  cases made
  have shortSettings := short.get? foundSettings
  exact regular_withBlock (forall_of_mapM known_of_strictBlock? readBlocks)
    (short_amount (shortSettings.get? foundSpacing) readSpacing)
    (short_amount (shortSettings.get? foundScale) readScale)
    (readable_taken short _) (readable_taken short _)

theorem regular_of_lenientObject? {json : Json} {envelope : Envelope}
    (short : AllNumbers IsShortIfWhole json) (read : lenientObject? json = some envelope) :
    IsRegular IsShortIfWhole
      (if envelope.blocks.isEmpty then { envelope with blocks := [{}] } else envelope) := by
  obtain ⟨_, -, read⟩ := Option.bind_eq_some_iff.mp read
  obtain ⟨items, -, read⟩ := Option.bind_eq_some_iff.mp read
  obtain ⟨blocks, readBlocks, made⟩ := Option.bind_eq_some_iff.mp read
  cases made
  have shortSetting : ∀ name : String,
      ∀ value ∈ (json.get? "settings").bind (Json.get? name), AllNumbers IsShortIfWhole value := by
    intro name value found
    obtain ⟨settings, foundSettings, found⟩ := Option.bind_eq_some_iff.mp found
    exact (short.get? foundSettings).get? found
  refine regular_withBlock (forall_of_mapM known_of_lenientBlock? readBlocks)
    (short_settingOr ?_) (short_settingOr (shortSetting "verticalScale"))
    (by simp) (by simp)
  intro value found
  rcases Option.or_eq_some_iff.mp found with found | ⟨-, found⟩
  · exact shortSetting _ value found
  · exact shortSetting _ value found

theorem regular_of_lenientArray? {json : Json} {envelope : Envelope}
    (read : lenientArray? json = some envelope) :
    IsRegular IsShortIfWhole
      (if envelope.blocks.isEmpty then { envelope with blocks := [{}] } else envelope) := by
  obtain ⟨items, -, read⟩ := Option.bind_eq_some_iff.mp read
  obtain ⟨blocks, readBlocks, made⟩ := Option.bind_eq_some_iff.mp read
  cases made
  exact regular_withBlock (forall_of_mapM known_of_lenientBlock? readBlocks) standard_short
    standard_short (by simp) (by simp)

theorem regular_ofRaw (raw : String) : IsRegular IsShortIfWhole (ofRaw raw) :=
  ⟨List.cons_ne_nil _ _, by simp [ofRaw], standard_short, standard_short, by simp [ofRaw],
    by simp [ofRaw]⟩

/-- Whatever is read can be written, but for settings that are binary64 numbers. -/
theorem regular_decode (raw : String) : IsRegular IsShortIfWhole (decode raw) := by
  unfold decode
  split
  · exact regular_ofRaw raw
  · rename_i json parsed
    have short := Json.shortIfWhole_of_parse? parsed
    split
    · exact regular_ofRaw raw
    · rename_i envelope read
      rcases Option.or_eq_some_iff.mp read with read | ⟨-, read⟩
      · rcases Option.or_eq_some_iff.mp read with read | ⟨-, read⟩
        · exact regular_of_current? short read
        · exact regular_of_lenientObject? short read
      · exact regular_of_lenientArray? read

theorem readable_of_whole {amount : Amount} (short : IsShortIfWhole amount)
    (whole : amount.whole?.isSome) : IsReadable amount := by
  cases amount with
  | whole n => exact short n rfl
  | real => cases whole

theorem IsRegular.storable {envelope : Envelope} (regular : IsRegular IsShortIfWhole envelope)
    (wholeSpacing : envelope.settings.spacing.whole?.isSome)
    (wholeScale : envelope.settings.scale.whole?.isSome) : envelope.IsStorable :=
  { regular with
    spacing := readable_of_whole regular.spacing wholeSpacing
    scale := readable_of_whole regular.scale wholeScale }

theorem IsRegular.short {envelope : Envelope} (storable : envelope.IsStorable) :
    IsRegular IsShortIfWhole envelope :=
  { storable with
    spacing := Json.shortIfWhole_of_readable storable.spacing
    scale := Json.shortIfWhole_of_readable storable.scale }

/-- A storable envelope is read back as it was written. Whatever text an
envelope is read from, it is storable once its settings are whole, and then
writing and reading it again changes nothing. -/
theorem decode?_encode (reach : Reach) :
    (∀ envelope : Envelope, envelope.IsStorable → decode? reach envelope.encode = some envelope) ∧
    ∀ (raw : String) (envelope : Envelope), decode? reach raw = some envelope →
      IsRegular IsShortIfWhole envelope ∧
      (envelope.settings.spacing.whole?.isSome → envelope.settings.scale.whole?.isSome →
        envelope.IsStorable ∧ decode? reach envelope.encode = some envelope) := by
  refine ⟨fun _ storable => decode?_encode_of_storable storable reach, ?_⟩
  intro raw envelope read
  unfold decode? at read
  split at read
  · cases read
  · cases read
    have regular := regular_decode raw
    refine ⟨regular, ?_⟩
    intro wholeSpacing wholeScale
    have storable := regular.storable wholeSpacing wholeScale
    exact ⟨storable, decode?_encode_of_storable storable reach⟩

/-- Quotes, backslashes and controls come through, and so do zeros and a bare
array of texts. -/
theorem decode?_encode_quoted :
    decode? .usual
        (encode ⟨[⟨.chords, "C \"\\\n\x01é"⟩, ⟨.melody, ""⟩], ⟨0, .whole (-3)⟩, some 0, none⟩) =
      some ⟨[⟨.chords, "C \"\\\n\x01é"⟩, ⟨.melody, ""⟩], ⟨0, .whole (-3)⟩, some 0, none⟩ ∧
      decode? .usual "[\"1\"]" = some ⟨[⟨.melody, "1"⟩], .standard, none, none⟩ ∧
      decode? .usual (encode ⟨[⟨.melody, "1"⟩], .standard, none, none⟩) =
        some ⟨[⟨.melody, "1"⟩], .standard, none, none⟩ := by
  have oldest : decode? .usual "[\"1\"]" = some ⟨[⟨.melody, "1"⟩], .standard, none, none⟩ := by
    rfl
  refine ⟨(decode?_encode .usual).1 _ ⟨by simp, by simp, ?_, ?_, ?_, ?_⟩, oldest,
    (((decode?_encode .usual).2 _ _ oldest).2 rfl rfl).2⟩
  · exact (by decide : IsShort 0)
  · exact (by decide : IsShort (-3))
  · rintro _ ⟨⟩
    exact (by decide : IsShort 0)
  · simp

end Jianpu.Envelope
