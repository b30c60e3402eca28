import Jianpu.Proofs.Score.Tokens
import Mathlib.Data.List.Induction

/-! Import writes what the score holds. The voice with the most notes is copied
event by event, and reading the copy gives its notes back, each at its own pitch
and in the length its duration snaps to. Only octave marks beyond number keep a
pitch from being written. -/

set_option autoImplicit false

namespace Jianpu.Import

open Notation (Melody)
open Number (Fault)

/-- The first of the voices that have the most notes, and it has one. -/
def IsLeading (voices : List (Voice Rat)) (voice : Voice Rat) : Prop :=
  ∃ before after, voices = before ++ voice :: after ∧ 0 < voice.noteCount ∧
    (∀ other ∈ before, other.noteCount < voice.noteCount) ∧
    ∀ other ∈ after, other.noteCount ≤ voice.noteCount

/-- The pitches and durations of a voice that sound when it is written. -/
def soundsOf (voice : Voice Rat) : List (Int × Rat) :=
  voice.events.filterMap sound?

/-! The voice that is written -/

theorem chooseVoice?_snoc {α : Type} (voices : List (Voice α)) (voice : Voice α) :
    chooseVoice? (voices ++ [voice]) =
      if ((chooseVoice? voices).map Voice.noteCount).getD 0 < voice.noteCount then some voice
      else chooseVoice? voices := by
  rw [chooseVoice?, List.foldl_append]
  rfl

/-- Either no voice has a note and none is chosen, or the first of those with the most is. -/
theorem chooseVoice?_leading {α : Type} (voices : List (Voice α)) :
    (chooseVoice? voices = none ∧ ∀ voice ∈ voices, voice.noteCount = 0) ∨
      ∃ voice, chooseVoice? voices = some voice ∧
        ∃ before after, voices = before ++ voice :: after ∧ 0 < voice.noteCount ∧
          (∀ other ∈ before, other.noteCount < voice.noteCount) ∧
          ∀ other ∈ after, other.noteCount ≤ voice.noteCount := by
  induction voices using List.reverseRecOn with
  | nil => exact .inl ⟨rfl, by simp⟩
  | append_singleton voices voice ih =>
      rw [chooseVoice?_snoc]
      rcases ih with ⟨absent, silent⟩ | ⟨best, chosen, before, after, split, sounding, less, atMost⟩
      · rw [absent]
        by_cases sounding : 0 < voice.noteCount
        · refine .inr ⟨voice, if_pos sounding, voices, [], rfl, sounding, ?_, by simp⟩
          intro other member
          rw [silent other member]
          exact sounding
        · refine .inl ⟨if_neg sounding, ?_⟩
          intro other member
          rcases List.mem_append.mp member with member | member
          · exact silent other member
          · rw [List.mem_singleton.mp member]
            exact Nat.eq_zero_of_not_pos sounding
      · rw [chosen]
        right
        by_cases more : best.noteCount < voice.noteCount
        · refine ⟨voice, if_pos more, voices, [], rfl, by omega, ?_, by simp⟩
          intro other member
          rw [split, List.mem_append, List.mem_cons] at member
          rcases member with member | rfl | member
          · exact Nat.lt_trans (less other member) more
          · exact more
          · exact Nat.lt_of_le_of_lt (atMost other member) more
        · refine ⟨best, if_neg more, before, after ++ [voice], by simp [split], sounding, less, ?_⟩
          intro other member
          rcases List.mem_append.mp member with member | member
          · exact atMost other member
          · rw [List.mem_singleton.mp member]
            exact Nat.le_of_not_lt more

/-! The key -/

theorem indexOfFifths_lt (fifths : Int) : Key.indexOfFifths fifths < Key.catalog.length := by
  have size : Key.catalog.length = 13 := rfl
  unfold Key.indexOfFifths
  repeat' split
  all_goals omega

theorem keyIndexOf_inCatalog {α : Type} (score : Score α) {forced : Option Int}
    (inCatalog : ∀ index ∈ forced, 0 ≤ index ∧ index < Key.catalog.length) :
    (∃ key, Key.at? (keyIndexOf score forced) = some key) ∧
      ∀ index ∈ forced, keyIndexOf score forced = index := by
  have bounds : 0 ≤ keyIndexOf score forced ∧
      keyIndexOf score forced < Key.catalog.length := by
    unfold keyIndexOf
    cases forced with
    | some index => exact inCatalog index rfl
    | none =>
        cases score.fifths with
        | none => decide
        | some fifths =>
            have known := indexOfFifths_lt fifths.value
            dsimp only
            omega
  refine ⟨?_, ?_⟩
  · rw [Key.at?, if_pos bounds.1]
    exact ⟨_, List.getElem?_eq_getElem (by omega)⟩
  · rintro index ⟨⟩
    rfl

/-! The text -/

/-- The events of a voice are written in order, each as a token that renders it. -/
theorem mapM_eventToken? (key : Key) {events : List (ScoreEvent Rat)}
    (writable : ∀ sound ∈ events.filterMap sound?,
      Pitch.marksFault? (Pitch.octaveOf key sound.1) = none) :
    ∃ tokens, events.mapM (eventToken? key) = .ok tokens ∧
      List.Forall₂ (Renders key) (events.filter isKept) (tokens.filterMap id) := by
  induction events with
  | nil => exact ⟨[], rfl, .nil⟩
  | cons event events ih =>
      have later : ∀ sound ∈ events.filterMap sound?,
          Pitch.marksFault? (Pitch.octaveOf key sound.1) = none := by
        intro sound member
        obtain ⟨other, present, sounding⟩ := List.mem_filterMap.mp member
        exact writable sound (List.mem_filterMap.mpr ⟨other, .tail _ present, sounding⟩)
      obtain ⟨tokens, written, rendered⟩ := ih later
      cases kept : isKept event with
      | true =>
          obtain ⟨token, first, renders⟩ := eventToken?_kept key kept fun sound sounding =>
            writable sound (List.mem_filterMap.mpr ⟨event, List.mem_cons_self, sounding⟩)
          refine ⟨some token :: tokens, ?_, ?_⟩
          · rw [List.mapM_cons, first, written]
            rfl
          · rw [List.filter_cons_of_pos kept]
            exact .cons renders rendered
      | false =>
          refine ⟨none :: tokens, ?_, ?_⟩
          · rw [List.mapM_cons, eventToken?_member key kept, written]
            rfl
          · rw [List.filter_cons_of_neg (by simp [kept])]
            exact rendered

theorem kept_of_sound? {event : ScoreEvent Rat} {sound : Int × Rat}
    (sounding : sound? event = some sound) : isKept event = true := by
  cases event with
  | rest => rfl
  | note note =>
      simp only [sound?] at sounding
      split at sounding
      · cases sounding
      · rename_i first
        simpa [isKept] using first

/-- Writing stops at the first pitch whose octave marks cannot be written. -/
theorem mapM_eventToken?_fault (key : Key) {events : List (ScoreEvent Rat)}
    {before after : List (Int × Rat)} {sound : Int × Rat} {fault : Fault}
    (sounds : events.filterMap sound? = before ++ sound :: after)
    (writable : ∀ earlier ∈ before, Pitch.marksFault? (Pitch.octaveOf key earlier.1) = none)
    (unwritable : Pitch.marksFault? (Pitch.octaveOf key sound.1) = some fault) :
    events.mapM (eventToken? key) = .error fault := by
  induction events generalizing before with
  | nil => simp at sounds
  | cons event events ih =>
      have continued : ∀ token before, eventToken? key event = .ok token →
          events.filterMap sound? = before ++ sound :: after →
          (∀ earlier ∈ before, Pitch.marksFault? (Pitch.octaveOf key earlier.1) = none) →
          (event :: events).mapM (eventToken? key) = .error fault := by
        intro token before first rest clear
        rw [List.mapM_cons, first, ih rest clear]
        rfl
      cases sounding : sound? event with
      | none =>
          rw [List.filterMap_cons_none sounding] at sounds
          cases kept : isKept event with
          | true =>
              obtain ⟨token, first, -⟩ := eventToken?_kept key kept (by simp [sounding])
              exact continued _ before first sounds writable
          | false => exact continued _ before (eventToken?_member key kept) sounds writable
      | some own =>
          rw [List.filterMap_cons_some sounding] at sounds
          cases before with
          | nil =>
              obtain ⟨rfl, -⟩ := List.cons.inj sounds
              rw [List.mapM_cons, eventToken?_fault key sounding unwritable]
              rfl
          | cons earlier before =>
              obtain ⟨rfl, rest⟩ := List.cons.inj sounds
              obtain ⟨token, first, -⟩ := eventToken?_kept key (kept_of_sound? sounding) (by
                rw [sounding]
                rintro _ ⟨⟩
                exact writable own List.mem_cons_self)
              exact continued _ before first rest fun other member =>
                writable other (.tail _ member)

theorem IsTokenOf.no_opening {event : ScoreEvent Rat} {token : String}
    (isToken : IsTokenOf event token) : '[' ∉ token.toList := by
  obtain ⟨head, modifiers, spelled, heads, marks⟩ := isToken
  rw [spelled, List.mem_cons, not_or]
  refine ⟨?_, fun member => absurd (marks _ member) (by decide)⟩
  rintro rfl
  cases event with
  | rest => cases heads
  | note note =>
      simp only [Heads] at heads
      split at heads <;> exact absurd heads (by decide)

theorem sounds_of_kept {events : List (ScoreEvent Rat)} :
    events.filterMap sound? =
      (events.filter isKept).flatMap fun event => (sound? event).toList := by
  rw [← List.filterMap_eq_flatMap_toList, List.filterMap_filter]
  refine List.filterMap_congr fun event _ => ?_
  cases sounding : sound? event with
  | none => simp
  | some sound => simp [kept_of_sound? sounding]

/-- The tokens of a voice, put together, are read as its sounds in order. -/
theorem sounds_of_renders (key : Key) {events : List (ScoreEvent Rat)} {tokens : List String}
    (rendered : List.Forall₂ (Renders key) events tokens) :
    List.Forall₂ Sounds (events.flatMap fun event => (sound? event).toList)
      (Melody.ofText key (" ".intercalate tokens)).events := by
  have closed : ∀ token ∈ tokens, Notation.ClosesGroups token.toList := by
    induction rendered with
    | nil => simp
    | cons renders _ ih =>
        exact List.forall_mem_cons.mpr
          ⟨Notation.closesGroups_of_not_mem renders.isToken.no_opening, ih⟩
  have text : Notation.tokens (" ".intercalate tokens).toList =
      (tokens.map String.toList).flatMap Notation.tokens := by
    rw [String.toList_intercalate]
    exact Notation.tokens_intercalate Notation.separates_space (by simpa using closed)
  rw [Melody.ofText, Notation.eventsOf, text, List.flatMap_map, List.map_flatMap]
  exact List.rel_flatMap rendered fun _ _ renders => renders.sounds

section

variable {α : Type} [NoteLength α] {score : Score α} {forced : Option Int} {key : Key}
  {voice : Voice α} (found : Key.at? (keyIndexOf score forced) = some key)
  (chosen : chooseVoice? score.voices = some voice)

include found chosen

theorem convert_of_written {tokens : List (Option String)}
    (written : voice.events.mapM (eventToken? key) = .ok tokens) :
    convert score forced =
      .ok (.melody (" ".intercalate (tokens.filterMap id)) (keyIndexOf score forced)) := by
  simp only [convert, Key.resolve, found, chosen, written]

theorem convert_of_stopped {fault : Fault}
    (stopped : voice.events.mapM (eventToken? key) = .error fault) :
    convert score forced = .error (.number fault) := by
  simp only [convert, Key.resolve, found, chosen, stopped]

end

/-- Import copies the leading voice. Its text has one token for each rest and
each note that is no further one of a chord, and is read as its readable notes,
in order. It fails only where octave marks cannot be written, and it finds no
notes only where there are none. -/
theorem convert_copies_leading_voice (score : Score Rat) (forced : Option Int)
    (inCatalog : ∀ index ∈ forced, 0 ≤ index ∧ index < Key.catalog.length) :
    ((∀ voice ∈ score.voices, voice.noteCount = 0) ∧ convert score forced = .ok .noNotes) ∨
      ∃ voice index key, IsLeading score.voices voice ∧ Key.at? index = some key ∧
        (∀ given ∈ forced, index = given) ∧
        ((∀ sound ∈ soundsOf voice,
            Pitch.marksFault? (Pitch.octaveOf key sound.1) = none) →
          ∃ tokens, convert score forced =
              .ok (.melody (" ".intercalate tokens) index) ∧
            List.Forall₂ IsTokenOf (voice.events.filter isKept) tokens ∧
            List.Forall₂ Sounds (soundsOf voice)
              (Melody.ofText key (" ".intercalate tokens)).events) ∧
        ∀ before sound after fault, soundsOf voice = before ++ sound :: after →
          (∀ earlier ∈ before, Pitch.marksFault? (Pitch.octaveOf key earlier.1) = none) →
          Pitch.marksFault? (Pitch.octaveOf key sound.1) = some fault →
          convert score forced = .error (.number fault) := by
  obtain ⟨⟨key, found⟩, chosenKey⟩ := keyIndexOf_inCatalog score inCatalog
  rcases chooseVoice?_leading score.voices with ⟨absent, silent⟩ | ⟨voice, chosen, leading⟩
  · refine .inl ⟨silent, ?_⟩
    simp [convert, Key.resolve, found, absent]
  · refine .inr ⟨voice, keyIndexOf score forced, key, leading, found, chosenKey, ?_, ?_⟩
    · intro writable
      obtain ⟨tokens, written, rendered⟩ := mapM_eventToken? key writable
      refine ⟨tokens.filterMap id, ?_, ?_, ?_⟩
      · exact convert_of_written found chosen written
      · exact rendered.imp fun _ _ renders => renders.isToken
      · rw [soundsOf, sounds_of_kept]
        exact sounds_of_renders key rendered
    · intro before sound after fault sounds writable unwritable
      exact convert_of_stopped found chosen
        (mapM_eventToken?_fault key sounds writable unwritable)

/-- A C sharp after a rest, with a further note of its chord. -/
def chordAfterRest : Voice Rat :=
  ⟨"Lead", [.rest 1, .note ⟨some (.number 61), 1, 3 / 2, false⟩,
    .note ⟨some (.number 64), 1, 3 / 2, true⟩]⟩

theorem convert_copies_chord_after_rest :
    (∀ index ∈ some (2 : Int), 0 ≤ index ∧ index < Key.catalog.length) ∧
      ∃ tokens, convert ⟨none, [chordAfterRest]⟩ (some 2) =
          .ok (.melody (" ".intercalate tokens) 2) ∧
        List.Forall₂ IsTokenOf
          [.rest 1, .note ⟨some (.number 61), 1, 3 / 2, false⟩] tokens ∧
        List.Forall₂ Sounds [(61, 3 / 2)]
          (Melody.ofText (Key.atOrDefault 2) (" ".intercalate tokens)).events := by
  have inCatalog : ∀ index ∈ some (2 : Int), 0 ≤ index ∧ index < Key.catalog.length := by
    rintro _ ⟨⟩
    decide
  refine ⟨inCatalog, ?_⟩
  rcases convert_copies_leading_voice ⟨none, [chordAfterRest]⟩ (some 2) inCatalog with
    ⟨silent, -⟩ | ⟨voice, index, key, leading, found, given, copied, -⟩
  · exact absurd (silent chordAfterRest List.mem_cons_self) (by decide)
  · obtain rfl : index = 2 := given 2 rfl
    obtain rfl : Key.atOrDefault 2 = key := Option.some.inj found
    obtain ⟨before, after, split, -⟩ := leading
    cases before with
    | cons other before => simp at split
    | nil =>
        obtain ⟨rfl, -⟩ := List.cons.inj split
        refine copied ?_
        intro sound member
        obtain rfl : sound = (61, 3 / 2) := List.mem_singleton.mp member
        decide

/-- A pitch with more octave marks than can be counted. -/
def beyondCount : Voice Rat :=
  ⟨"Lead", [.note ⟨some (.number (12 * 2 ^ 64 + 60)), 0, 1, false⟩]⟩

theorem convert_overflows : ¬ ∃ outcome, convert ⟨none, [beyondCount]⟩ none = .ok outcome := by
  rintro ⟨outcome, converted⟩
  have found : Key.at? (keyIndexOf (⟨none, [beyondCount]⟩ : Score Rat) none) =
      some (Key.atOrDefault 0) := rfl
  have fault : Pitch.marksFault?
      (Pitch.octaveOf (Key.atOrDefault 0) (12 * 2 ^ 64 + 60)) = some .tooLarge := by
    decide
  have stopped : beyondCount.events.mapM (eventToken? (Key.atOrDefault 0)) = .error .tooLarge :=
    mapM_eventToken?_fault _ rfl (List.forall_mem_nil _) fault
  rw [convert_of_stopped found rfl stopped] at converted
  cases converted

end Jianpu.Import
