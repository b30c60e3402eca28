import Jianpu.Proofs.Score.Import
import Jianpu.Score.Stream

/-! What reading a stream and writing its melody make of the elements. Each element
becomes one rest, or one note with the members of its chord behind it, and each
element of the part that is written becomes one token, whatever pitches could be
read. -/

set_option autoImplicit false

namespace Jianpu

open Notation (degreeDigits noteModifiers)
open Number (Fault)

variable {α : Type}

/-! Results that fail as expected -/

section

variable {ε β γ δ : Type}

/-- A result that fails with exactly the fault that is expected of it, and is a good
value where none is expected. -/
def IsExpected (expected : Option ε) (good : γ → Prop) (result : Except ε γ) : Prop :=
  match expected with
  | some fault => result = .error fault
  | none => ∃ value, result = .ok value ∧ good value

/-- The fault of a result. -/
def faultOf? : Except ε γ → Option ε
  | .error fault => some fault
  | .ok _ => none

theorem isExpected_self (result : Except ε γ) :
    IsExpected (faultOf? result) (fun value => result = .ok value) result := by
  cases result with
  | error fault => rfl
  | ok value => exact ⟨value, rfl, rfl⟩

theorem IsExpected.bind {first later : Option ε} {good : γ → Prop} {better : δ → Prop}
    {result : Except ε γ} {next : γ → Except ε δ} (expected : IsExpected first good result)
    (continues : ∀ value, good value → IsExpected later better (next value)) :
    IsExpected (first.or later) better (result >>= next) := by
  cases first with
  | some fault =>
      change result = .error fault at expected
      rw [expected]
      rfl
  | none =>
      obtain ⟨value, rfl, holds⟩ := expected
      exact continues value holds

theorem IsExpected.map {expected : Option ε} {good : γ → Prop} {better : δ → Prop}
    {result : Except ε γ} {f : γ → δ} (holds : IsExpected expected good result)
    (improves : ∀ value, good value → better (f value)) :
    IsExpected expected better (f <$> result) := by
  cases expected with
  | some fault =>
      change result = .error fault at holds
      rw [holds]
      rfl
  | none =>
      obtain ⟨value, rfl, good⟩ := holds
      exact ⟨f value, rfl, improves value good⟩

theorem findSome?_cons_or {f : β → Option ε} (item : β) (items : List β) :
    (item :: items).findSome? f = (f item).or (items.findSome? f) := by
  rw [List.findSome?_cons]
  cases f item <;> rfl

theorem isExpected_mapM {f : β → Except ε γ} {fault? : β → Option ε} {good : β → γ → Prop}
    (each : ∀ item, IsExpected (fault? item) (good item) (f item)) (items : List β) :
    IsExpected (items.findSome? fault?) (List.Forall₂ good items) (items.mapM f) := by
  induction items with
  | nil => exact ⟨[], rfl, .nil⟩
  | cons item items ih =>
      rw [findSome?_cons_or, List.mapM_cons]
      refine (each item).bind fun image holds => ?_
      exact ih.map fun images hold => .cons holds hold

end

/-! Numbers that can be read -/

/-- An element whose numbers can be read. -/
def StreamElement.given (element : StreamElement α) : StreamElement (Except Fault α) :=
  { element with quarters := .ok element.quarters, offset := .ok element.offset }

/-- A part whose numbers can be read. -/
def StreamPart.given (part : StreamPart α) : StreamPart (Except Fault α) :=
  { part with elements := part.elements.map StreamElement.given }

theorem StreamElement.given_injective :
    Function.Injective (StreamElement.given : StreamElement α → _) := by
  rintro ⟨quarters, offset, isRest, pitches⟩ ⟨quarters', offset', isRest', pitches'⟩ same
  simpa [StreamElement.given] using same

theorem StreamPart.given_injective :
    Function.Injective (StreamPart.given : StreamPart α → _) := by
  rintro ⟨name, elements⟩ ⟨name', elements'⟩ same
  obtain ⟨rfl, read⟩ := StreamPart.mk.inj same
  exact congrArg (StreamPart.mk name) (List.map_injective_iff.mpr StreamElement.given_injective read)

/-- The reason for which an element cannot be read: that of its length, then that of
its offset. -/
def StreamElement.fault? (element : StreamElement (Except Fault α)) : Option Fault :=
  (faultOf? element.quarters).or (faultOf? element.offset)

def StreamPart.fault? (part : StreamPart (Except Fault α)) : Option Fault :=
  part.elements.findSome? StreamElement.fault?

theorem map_of_forall₂ {β γ : Type} {f : γ → β} {items : List β} {images : List γ}
    (same : List.Forall₂ (fun item image => item = f image) items images) :
    items = images.map f := by
  rw [← List.forall₂_eq_eq_eq, List.forall₂_map_right_iff]
  exact same

namespace ScoreStream

theorem isExpected_settledElement (element : StreamElement (Except Fault α)) :
    IsExpected element.fault? (fun settled => element = settled.given) (settledElement element) := by
  refine (isExpected_self element.quarters).bind fun quarters length => ?_
  refine (isExpected_self element.offset).map fun offset start => ?_
  rw [StreamElement.given, ← length, ← start]

theorem isExpected_settledPart (part : StreamPart (Except Fault α)) :
    IsExpected part.fault? (fun settled => part = settled.given) (settledPart part) := by
  refine (isExpected_mapM isExpected_settledElement part.elements).map fun settled same => ?_
  have all := map_of_forall₂ same
  obtain ⟨name, elements⟩ := part
  exact congrArg (StreamPart.mk name) all

/-! Voices -/

/-- The events that an element is told by: one rest, or one note and behind it the
further members of its chord, all of its length and at its offset. A note stands for
each pitch; one without a pitch stands for an element that has none. -/
def IsGroupOf (element : StreamElement α) (events : List (ScoreEvent α)) : Prop :=
  if element.isRest then events = [.rest element.quarters]
  else
    ∃ first members, events = (first :: members).map .note ∧
      first.chordMember = false ∧ (∀ note ∈ members, note.chordMember = true) ∧
      (∀ note ∈ first :: members,
        note.start = element.offset ∧ note.duration = element.quarters) ∧
      (first :: members).map (·.pitch) =
        if element.pitches.isEmpty then [none] else element.pitches

/-- A voice that tells of every element of a part, in order. -/
def KeepsElements (part : StreamPart α) (voice : Voice α) : Prop :=
  ∃ groups, voice.events = groups.flatten ∧ List.Forall₂ IsGroupOf part.elements groups

theorem isGroupOf_eventsOf (element : StreamElement α) : IsGroupOf element (eventsOf element) := by
  unfold IsGroupOf eventsOf
  split
  · rfl
  · cases read : element.pitches with
    | nil => exact ⟨_, [], rfl, rfl, by simp, by simp, rfl⟩
    | cons first others =>
        exact ⟨⟨first, element.offset, element.quarters, false⟩,
          others.map fun pitch => ⟨pitch, element.offset, element.quarters, true⟩,
          by simp, rfl, by simp, by simp, by simp [Function.comp_def]⟩

theorem keepsElements_voiceOf (part : StreamPart α) (index : Nat) :
    KeepsElements part (voiceOf part index) := by
  refine ⟨part.elements.map eventsOf, List.flatMap_def, ?_⟩
  rw [List.forall₂_map_right_iff]
  exact List.forall₂_same.mpr fun element _ => isGroupOf_eventsOf element

theorem allParts_ne_nil (stream : ScoreStream α) : stream.allParts ≠ [] := by
  unfold allParts
  split
  · simp
  · rename_i parts
    simpa using parts

theorem partsRead_ne_nil (stream : ScoreStream α) (firstPartOnly : Bool) :
    stream.partsRead firstPartOnly ≠ [] := by
  have parts := stream.allParts_ne_nil
  unfold partsRead
  split
  · simpa using parts
  · exact parts

theorem voices_of_parts (parts : List (StreamPart α)) (start : Nat) :
    List.Forall₂ (fun part voice => ∃ index, voice = voiceOf part index) parts
      ((parts.zipIdx start).map fun (part, index) => voiceOf part index) := by
  induction parts generalizing start with
  | nil => exact .nil
  | cons part parts ih => exact .cons ⟨start, rfl⟩ (ih (start + 1))

/-- Reading fails with the first number that cannot be read, and otherwise makes one
voice of each part. -/
theorem isExpected_readScore (stream : ScoreStream (Except Fault α)) (firstPartOnly : Bool) :
    IsExpected ((stream.partsRead firstPartOnly).findSome? StreamPart.fault?)
      (fun score => ∃ parts, stream.partsRead firstPartOnly = parts.map StreamPart.given ∧
        List.Forall₂ (fun part voice => ∃ index, voice = voiceOf part index) parts score.voices)
      (stream.readScore firstPartOnly) := by
  refine (isExpected_mapM isExpected_settledPart (stream.partsRead firstPartOnly)).map
    fun parts same => ?_
  have all := map_of_forall₂ same
  have some : parts.isEmpty = false := by
    have read := stream.partsRead_ne_nil firstPartOnly
    rw [all] at read
    simpa using read
  refine ⟨parts, all, ?_⟩
  simp only [toScore, partsRead, allParts, some]
  exact voices_of_parts parts 0

theorem voices_of_first_part {stream : ScoreStream (Except Fault α)} {parts : List (StreamPart α)}
    {voices : List (Voice α)} (read : stream.partsRead true = parts.map StreamPart.given)
    (kept : List.Forall₂ KeepsElements parts voices) :
    ∃ part voice, stream.allParts.head? = some part.given ∧ KeepsElements part voice ∧
      voices = [voice] := by
  obtain ⟨first, others, split⟩ := List.exists_cons_of_ne_nil stream.allParts_ne_nil
  rw [partsRead, if_pos rfl, split] at read
  obtain ⟨part, rfl⟩ : ∃ part, parts = [part] :=
    List.length_eq_one_iff.mp (by simpa using (congrArg List.length read).symm)
  obtain ⟨voice, _, keeps, none, voices⟩ := List.forall₂_cons_left_iff.mp kept
  rw [List.forall₂_nil_left_iff.mp none] at voices
  refine ⟨part, voice, ?_, keeps, voices⟩
  rw [split]
  exact congrArg List.head? read

end ScoreStream

/-! Notes of an element -/

def StreamElement.noteCount (element : StreamElement α) : Nat :=
  if element.isRest then 0 else max 1 element.pitches.length

def StreamPart.noteCount (part : StreamPart α) : Nat :=
  (part.elements.map StreamElement.noteCount).sum

namespace ScoreStream

theorem countP_eventsOf (element : StreamElement α) :
    (eventsOf element).countP ScoreEvent.isNote = element.noteCount := by
  unfold eventsOf StreamElement.noteCount
  split
  · rfl
  · cases element.pitches with
    | nil => rfl
    | cons first others =>
        have notes : (others.map fun pitch => (ScoreEvent.note
            ⟨pitch, element.offset, element.quarters, true⟩ : ScoreEvent α)).countP
              ScoreEvent.isNote = others.length := by
          rw [List.countP_map]
          exact List.countP_eq_length.mpr fun _ _ => rfl
        rw [List.countP_cons_of_pos rfl, notes, List.length_cons]
        omega

theorem noteCount_voiceOf (part : StreamPart α) (index : Nat) :
    (voiceOf part index).noteCount = part.noteCount := by
  rw [Voice.noteCount, voiceOf, List.countP_flatMap, StreamPart.noteCount]
  exact congrArg List.sum (List.map_congr_left fun element _ => countP_eventsOf element)

end ScoreStream

/-- The first of the parts with the most notes, of which it has some. -/
def IsLeadingPart (parts : List (StreamPart α)) (part : StreamPart α) : Prop :=
  ∃ before after, parts = before ++ part :: after ∧ 0 < part.noteCount ∧
    (∀ other ∈ before, other.noteCount < part.noteCount) ∧
    ∀ other ∈ after, other.noteCount ≤ part.noteCount

theorem noteCount_of_voices (bounded : Nat → Prop) {parts : List (StreamPart α)}
    {voices : List (Voice α)}
    (voiced : List.Forall₂ (fun part voice => ∃ index, voice = ScoreStream.voiceOf part index)
      parts voices) (bound : ∀ voice ∈ voices, bounded voice.noteCount) :
    ∀ part ∈ parts, bounded part.noteCount := by
  induction voiced with
  | nil => simp
  | cons own _ ih =>
      obtain ⟨index, rfl⟩ := own
      obtain ⟨first, others⟩ := List.forall_mem_cons.mp bound
      rw [ScoreStream.noteCount_voiceOf] at first
      exact List.forall_mem_cons.mpr ⟨first, ih others⟩

theorem exists_leadingPart {parts : List (StreamPart α)} {before after : List (Voice α)}
    {voice : Voice α}
    (voiced : List.Forall₂ (fun part voice => ∃ index, voice = ScoreStream.voiceOf part index)
      parts (before ++ voice :: after))
    (sounding : 0 < voice.noteCount) (less : ∀ other ∈ before, other.noteCount < voice.noteCount)
    (atMost : ∀ other ∈ after, other.noteCount ≤ voice.noteCount) :
    ∃ part index, IsLeadingPart parts part ∧ voice = ScoreStream.voiceOf part index := by
  -- The voices around the leading one are those of the parts around its part.
  have front := List.forall₂_take_append parts before (voice :: after) voiced
  have back := List.forall₂_drop_append parts before (voice :: after) voiced
  obtain ⟨part, others, ⟨index, rfl⟩, behind, split⟩ := List.forall₂_cons_right_iff.mp back
  rw [ScoreStream.noteCount_voiceOf] at sounding less atMost
  refine ⟨part, index, ⟨parts.take before.length, others, ?_, sounding, ?_, ?_⟩, rfl⟩
  · rw [← split, List.take_append_drop]
  · exact noteCount_of_voices (· < part.noteCount) front less
  · exact noteCount_of_voices (· ≤ part.noteCount) behind atMost

/-! Words -/

namespace Import

variable [NoteLength α]

/-- The pitch that is written for an element: its first one, if that could be read. -/
def writtenPitch? (element : StreamElement α) : Option Int :=
  if element.isRest then none else element.pitches.head?.join.map (·.value)

/-- The reason for which no word can be written for an element: that its length
cannot be counted, or else that the octave marks of its pitch cannot be written. -/
def wordFault? (key : Key) (element : StreamElement α) : Option Fault :=
  (faultOf? (NoteLength.quarterBeats element.quarters)).or
    ((writtenPitch? element).bind fun pitch => Pitch.marksFault? (Pitch.octaveOf key pitch))

/-- A word for an element: a zero for a rest, a degree for a pitch that could be read
and a question mark for one that could not, and modifiers behind it. -/
def IsWordOf (element : StreamElement α) (word : List Char) : Prop :=
  ∃ head modifiers, word = head :: modifiers ∧ (∀ c ∈ modifiers, c ∈ noteModifiers) ∧
    if element.isRest then head = '0'
    else if (writtenPitch? element).isSome then head ∈ degreeDigits
    else head = '?'

omit [NoteLength α] in
theorem IsWordOf.no_space {element : StreamElement α} {word : List Char}
    (isWord : IsWordOf element word) : ' ' ∉ word := by
  obtain ⟨head, modifiers, rfl, marks, heads⟩ := isWord
  rw [List.mem_cons, not_or]
  refine ⟨?_, fun member => absurd (marks _ member) (by decide)⟩
  rintro rfl
  split at heads
  · cases heads
  · split at heads <;> exact absurd heads (by decide)

theorem isExpected_suffixOf (duration : α) :
    IsExpected (faultOf? (NoteLength.quarterBeats duration))
      (fun suffix => ∀ c ∈ suffix.toList, c ∈ Notation.lengthModifiers) (suffixOf duration) :=
  (isExpected_self (NoteLength.quarterBeats duration)).map fun quarters _ =>
    mem_lengthSuffix quarters

omit [NoteLength α] in
theorem isExpected_pitchToken (key : Key) (pitch : Int) {suffix : String}
    (lengthOnly : ∀ c ∈ suffix.toList, c ∈ Notation.lengthModifiers) :
    IsExpected (Pitch.marksFault? (Pitch.octaveOf key pitch))
      (fun word => ∃ digit modifiers, word.toList = digit :: modifiers ∧
        (∀ c ∈ modifiers, c ∈ noteModifiers) ∧ digit ∈ degreeDigits)
      (pitchToken key pitch suffix) := by
  rw [pitchToken]
  cases Pitch.marksFault? (Pitch.octaveOf key pitch) with
  | some fault => rfl
  | none =>
      obtain ⟨digit, modifiers, spelled, degree, marks, -, -⟩ := token_read key pitch lengthOnly
      exact ⟨_, rfl, digit, modifiers, spelled, marks, degree⟩

theorem isExpected_noteToken (key : Key) (note : ScoreNote α) :
    IsExpected
      ((faultOf? (NoteLength.quarterBeats note.duration)).or
        (note.pitch.bind fun pitch => Pitch.marksFault? (Pitch.octaveOf key pitch.value)))
      (fun word => ∃ head modifiers, word.toList = head :: modifiers ∧
        (∀ c ∈ modifiers, c ∈ noteModifiers) ∧
        if note.pitch.isSome then head ∈ degreeDigits else head = '?')
      (noteToken key note) := by
  refine (isExpected_suffixOf note.duration).bind fun suffix lengthOnly => ?_
  cases note.pitch with
  | none =>
      refine ⟨_, rfl, '?', suffix.toList, by simp, ?_, rfl⟩
      exact fun c member => Notation.lengthModifier_is_modifier c (lengthOnly c member)
  | some pitch => exact isExpected_pitchToken key pitch.value lengthOnly

/-- The event of an element that is written. -/
def leadOf (element : StreamElement α) : ScoreEvent α :=
  if element.isRest then .rest element.quarters
  else .note ⟨element.pitches.head?.join, element.offset, element.quarters, false⟩

omit [NoteLength α] in
theorem eventsOf_eq_leadOf (element : StreamElement α) :
    ∃ members : List (ScoreNote α), (∀ note ∈ members, note.chordMember = true) ∧
      ScoreStream.eventsOf element = leadOf element :: members.map .note := by
  unfold ScoreStream.eventsOf leadOf
  split
  · exact ⟨[], by simp, rfl⟩
  · cases element.pitches with
    | nil => exact ⟨[], by simp, rfl⟩
    | cons first others =>
        exact ⟨others.map fun pitch => ⟨pitch, element.offset, element.quarters, true⟩,
          by simp, by simp [Function.comp_def]⟩

theorem isExpected_leadOf (key : Key) (element : StreamElement α) :
    IsExpected (wordFault? key element)
      (fun token => ∃ word, token = some word ∧ IsWordOf element word.toList)
      (eventToken? key (leadOf element)) := by
  unfold leadOf wordFault? IsWordOf writtenPitch?
  cases rest : element.isRest with
  | true =>
      refine (isExpected_suffixOf element.quarters).bind fun suffix lengthOnly => ?_
      refine ⟨_, rfl, _, rfl, '0', suffix.toList, by simp, ?_, rfl⟩
      exact fun c member => Notation.lengthModifier_is_modifier c (lengthOnly c member)
  | false =>
      simp only [Bool.false_eq_true, if_false, eventToken?, Option.bind_map, Option.isSome_map]
      refine (isExpected_noteToken key (α := α) ⟨_, _, _, _⟩).map fun word => ?_
      rintro ⟨head, modifiers, spelled, marks, heads⟩
      exact ⟨word, rfl, head, modifiers, spelled, marks, heads⟩

theorem mapM_members (key : Key) {members : List (ScoreNote α)}
    (areMembers : ∀ note ∈ members, note.chordMember = true) :
    (members.map ScoreEvent.note).mapM (eventToken? key) =
      .ok (members.map fun _ => none) := by
  induction members with
  | nil => rfl
  | cons note members ih =>
      obtain ⟨own, others⟩ := List.forall_mem_cons.mp areMembers
      rw [List.map_cons, List.mapM_cons, ih others, eventToken?, if_pos own]
      rfl

theorem isExpected_eventsOf (key : Key) (element : StreamElement α) :
    IsExpected (wordFault? key element)
      (fun tokens => ∃ word, tokens.filterMap id = [word] ∧ IsWordOf element word.toList)
      ((ScoreStream.eventsOf element).mapM (eventToken? key)) := by
  obtain ⟨members, areMembers, events⟩ := eventsOf_eq_leadOf element
  rw [events, List.mapM_cons, mapM_members key areMembers]
  refine (isExpected_leadOf key element).map fun token => ?_
  rintro ⟨word, rfl, isWord⟩
  exact ⟨word, by simp, isWord⟩

/-- The events of a part are written as one word for each of its elements. -/
theorem isExpected_words (key : Key) (elements : List (StreamElement α)) :
    IsExpected (elements.findSome? (wordFault? key))
      (fun tokens => List.Forall₂ IsWordOf elements
        ((tokens.filterMap id).map String.toList))
      ((elements.flatMap ScoreStream.eventsOf).mapM (eventToken? key)) := by
  induction elements with
  | nil => exact ⟨[], rfl, .nil⟩
  | cons element elements ih =>
      rw [findSome?_cons_or, List.flatMap_cons, List.mapM_append]
      refine (isExpected_eventsOf key element).bind fun own => ?_
      rintro ⟨word, written, isWord⟩
      refine ih.map fun others areWords => ?_
      rw [List.filterMap_append, written, List.map_append]
      exact .cons isWord areWords

omit [NoteLength α] in
theorem no_space_of_areWords {elements : List (StreamElement α)} {words : List (List Char)}
    (areWords : List.Forall₂ IsWordOf elements words) : ∀ word ∈ words, ' ' ∉ word := by
  induction areWords with
  | nil => simp
  | cons isWord _ ih => exact List.forall_mem_cons.mpr ⟨isWord.no_space, ih⟩

omit [NoteLength α] in
/-- Words are found again in their text by its spaces. -/
theorem splitOn_words {elements : List (StreamElement α)} {words : List String}
    (some : elements ≠ []) (areWords : List.Forall₂ IsWordOf elements (words.map String.toList)) :
    (" ".intercalate words).toList.splitOn ' ' = words.map String.toList := by
  rw [String.toList_intercalate]
  refine List.splitOn_intercalate ' ' (no_space_of_areWords areWords) fun none => some ?_
  rw [none] at areWords
  exact List.forall₂_nil_right_iff.mp areWords

/-- The melody of a score is that of its leading part, if any part has notes. -/
theorem convert_of_parts {parts : List (StreamPart α)} {score : Score α} {forced : Option Int}
    (voiced : List.Forall₂ (fun part voice => ∃ index, voice = ScoreStream.voiceOf part index)
      parts score.voices)
    (inCatalog : ∀ index ∈ forced, 0 ≤ index ∧ index < Key.catalog.length) :
    (∀ part ∈ parts, part.noteCount = 0) ∧ convert score forced = .ok .noNotes ∨
      ∃ part index key, IsLeadingPart parts part ∧ Key.at? index = some key ∧
        (∀ given ∈ forced, index = given) ∧
        match part.elements.findSome? (wordFault? key) with
        | some fault => convert score forced = .error (.number fault)
        | none => ∃ text, convert score forced = .ok (.melody text index) ∧
            List.Forall₂ IsWordOf part.elements (text.toList.splitOn ' ') := by
  obtain ⟨⟨key, found⟩, chosenKey⟩ := keyIndexOf_inCatalog score inCatalog
  rcases chooseVoice?_leading score.voices with
    ⟨absent, silent⟩ | ⟨voice, chosen, before, after, split, sounding, less, atMost⟩
  · refine .inl ⟨noteCount_of_voices (· = 0) voiced silent, ?_⟩
    simp [convert, Key.resolve, found, absent]
  · rw [split] at voiced
    obtain ⟨part, index, leading, rfl⟩ := exists_leadingPart voiced sounding less atMost
    refine .inr ⟨part, _, key, leading, found, chosenKey, ?_⟩
    have words := isExpected_words key part.elements
    split
    · rename_i fault known
      rw [known] at words
      exact convert_of_stopped found chosen words
    · rename_i known
      rw [known] at words
      obtain ⟨tokens, written, areWords⟩ := words
      refine ⟨_, convert_of_written found chosen written, ?_⟩
      rw [splitOn_words ?_ areWords]
      · exact areWords
      -- The leading part has a note, and so an element.
      · rintro empty
        obtain ⟨-, -, -, some, -⟩ := leading
        rw [StreamPart.noteCount, empty] at some
        exact absurd some (Nat.lt_irrefl 0)

end Import

/-- Reading a stream and writing its melody keep one event for each element. Reading
fails with the first number that cannot be read. Otherwise it makes one voice of each
part, of the first one alone if no more are wanted, in which each element is told by
one rest or by one note and the members of its chord. Writing finds no notes only
where there are none. Otherwise it writes the part with the most notes, one word for
each of its elements whatever pitches could be read, unless the length of an element
cannot be counted or the octave marks of its pitch cannot be written. -/
theorem ScoreStream.reading_keeps_elements [Import.NoteLength α]
    (stream : ScoreStream (Except Fault α)) (firstPartOnly : Bool) (forced : Option Int)
    (inCatalog : ∀ index ∈ forced, 0 ≤ index ∧ index < Key.catalog.length) :
    match (stream.partsRead firstPartOnly).findSome? StreamPart.fault? with
    | some fault => stream.readScore firstPartOnly = .error fault
    | none =>
      ∃ parts score, stream.partsRead firstPartOnly = parts.map StreamPart.given ∧
        stream.readScore firstPartOnly = .ok score ∧
        List.Forall₂ KeepsElements parts score.voices ∧
        (firstPartOnly = true → ∃ part voice, stream.allParts.head? = some part.given ∧
          KeepsElements part voice ∧ score.voices = [voice]) ∧
        ((∀ part ∈ parts, part.noteCount = 0) ∧ Import.convert score forced = .ok .noNotes ∨
          ∃ part index key, IsLeadingPart parts part ∧ Key.at? index = some key ∧
            (∀ given ∈ forced, index = given) ∧
            match part.elements.findSome? (Import.wordFault? key) with
            | some fault => Import.convert score forced = .error (.number fault)
            | none => ∃ text, Import.convert score forced = .ok (.melody text index) ∧
                List.Forall₂ Import.IsWordOf part.elements (text.toList.splitOn ' ')) := by
  have expected := stream.isExpected_readScore firstPartOnly
  split
  · rename_i fault known
    rwa [known] at expected
  · rename_i known
    rw [known] at expected
    obtain ⟨score, read, parts, all, voiced⟩ := expected
    have kept : List.Forall₂ KeepsElements parts score.voices := by
      refine voiced.imp fun part voice => ?_
      rintro ⟨index, rfl⟩
      exact keepsElements_voiceOf part index
    refine ⟨parts, score, all, read, kept, ?_, Import.convert_of_parts voiced inCatalog⟩
    rintro rfl
    exact voices_of_first_part all kept

/-- A rest, a chord whose first pitch could not be read, and a note without a pitch. -/
def hardToRead : StreamPart Rat :=
  ⟨"Lead", [⟨1, 0, true, []⟩, ⟨3 / 2, 1, false, [none, some (.number 64)]⟩, ⟨1, 5 / 2, false, []⟩]⟩

theorem ScoreStream.reading_keeps_elements_hard_to_read :
    (∀ index ∈ some (2 : Int), 0 ≤ index ∧ index < Key.catalog.length) ∧
      ∃ score text, ScoreStream.readScore ⟨[], hardToRead.given, []⟩ true = .ok score ∧
        Import.convert score (some 2) = .ok (.melody text 2) ∧
        List.Forall₂ Import.IsWordOf hardToRead.elements (text.toList.splitOn ' ') := by
  have inCatalog : ∀ index ∈ some (2 : Int), 0 ≤ index ∧ index < Key.catalog.length := by
    rintro _ ⟨⟩
    decide
  refine ⟨inCatalog, ?_⟩
  have kept := ScoreStream.reading_keeps_elements ⟨[], hardToRead.given, []⟩ true (some 2) inCatalog
  obtain ⟨parts, score, all, read, -, -, written⟩ := kept
  obtain rfl : [hardToRead] = parts :=
    List.map_injective_iff.mpr StreamPart.given_injective all
  rcases written with ⟨silent, -⟩ | ⟨part, index, key, ⟨before, after, one, -⟩, known, given, text⟩
  · exact absurd (silent hardToRead List.mem_cons_self) (by decide)
  · obtain rfl : index = 2 := given 2 rfl
    obtain rfl : Key.atOrDefault 2 = key := Option.some.inj known
    obtain ⟨rfl, rfl, rfl⟩ : before = [] ∧ hardToRead = part ∧ after = [] := by
      cases before <;> simp_all
    obtain ⟨text, converted, words⟩ := text
    exact ⟨score, text, read, converted, words⟩

/-- A pitch with more octave marks than can be counted. -/
def farOff : StreamPart Rat :=
  ⟨"Lead", [⟨1, 0, false, [some (.number (12 * 2 ^ 64 + 60))]⟩]⟩

theorem ScoreStream.far_off_element_is_not_written :
    ∃ score, ScoreStream.readScore ⟨[], farOff.given, []⟩ true = .ok score ∧
      Import.convert score none = .error (.number .tooLarge) := by
  refine ⟨⟨none, [voiceOf farOff 0]⟩, rfl, ?_⟩
  have found : Key.at? (Import.keyIndexOf (⟨none, [voiceOf farOff 0]⟩ : Score Rat) none) =
      some (Key.atOrDefault 0) := rfl
  have fault : farOff.elements.findSome? (Import.wordFault? (Key.atOrDefault 0)) =
      some .tooLarge := by
    decide
  have words := Import.isExpected_words (Key.atOrDefault 0) farOff.elements
  rw [fault] at words
  exact Import.convert_of_stopped found rfl words

end Jianpu
