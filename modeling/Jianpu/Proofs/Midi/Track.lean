import Jianpu.Midi.File
import Mathlib.Data.List.Basic

/-! The melody track of notes that follow one another. Its events are sorted, and
sorting is stable, so what a part of the track holds is told from the notes that
belong there. A note of at least one tick is in the track with its two events side
by side. -/

set_option autoImplicit false

namespace Jianpu.Midi

/-! Stable sorting of parts that are in order already -/

section Sorting

variable {α : Type} {le : α → α → Bool}

/-- Where two lists are split by a condition, the parts agree. -/
theorem parts_eq_of_append_eq (holds : α → Bool) {first second front back : List α}
    (same : first ++ second = front ++ back) (inFirst : ∀ a ∈ first, holds a)
    (notInSecond : ∀ a ∈ second, ¬ holds a) (inFront : ∀ a ∈ front, holds a)
    (notInBack : ∀ a ∈ back, ¬ holds a) : first = front ∧ second = back := by
  have kept := congrArg (List.filter holds) same
  rw [List.filter_append, List.filter_append, List.filter_eq_self.mpr inFirst,
    List.filter_eq_nil_iff.mpr notInSecond, List.filter_eq_self.mpr inFront,
    List.filter_eq_nil_iff.mpr notInBack, List.append_nil, List.append_nil] at kept
  subst kept
  exact ⟨rfl, List.append_cancel_left same⟩

theorem mergeSort_append (trans : ∀ a b c, le a b → le b c → le a c)
    (total : ∀ a b, le a b || le b a) {left right : List α}
    (ordered : ∀ a ∈ left, ∀ b ∈ right, le a b) :
    (left ++ right).mergeSort le = left.mergeSort le ++ right.mergeSort le := by
  induction left with
  | nil => simp
  | cons a left ih =>
      have rest := ih fun b among => ordered b (List.mem_cons_of_mem a among)
      obtain ⟨front, back, whole, both, early⟩ :=
        List.mergeSort_cons trans total a (left ++ right)
      obtain ⟨first, second, part, alone, soon⟩ := List.mergeSort_cons trans total a left
      have sorted := List.pairwise_mergeSort trans total (a :: (left ++ right))
      rw [whole] at sorted
      have late : ∀ b ∈ back, le a b :=
        (List.pairwise_cons.mp (List.pairwise_append.mp sorted).2.1).1
      have sortedPart := List.pairwise_mergeSort trans total (a :: left)
      rw [part] at sortedPart
      have latePart : ∀ b ∈ second, le a b :=
        (List.pairwise_cons.mp (List.pairwise_append.mp sortedPart).2.1).1
      have same : first ++ (second ++ right.mergeSort le) = front ++ back := by
        rw [← List.append_assoc, ← alone, ← rest, both]
      obtain ⟨rfl, rfl⟩ := parts_eq_of_append_eq (fun b => !le a b) same
        (by simpa using soon)
        (by
          intro b among
          rcases List.mem_append.mp among with inPart | inRight
          · simpa using latePart b inPart
          · simpa using ordered a List.mem_cons_self b (List.mem_mergeSort.mp inRight))
        (by simpa using early) (by simpa using late)
      rw [List.cons_append, whole, part, List.append_assoc, List.cons_append]

/-- Elements that are in order stay in that order among the ones of their kind. -/
theorem filter_mergeSort (trans : ∀ a b c, le a b → le b c → le a c)
    (total : ∀ a b, le a b || le b a) {holds : α → Bool} {list : List α}
    (ordered : (list.filter holds).Pairwise fun a b => le a b) :
    (list.mergeSort le).filter holds = list.filter holds := by
  have inside := (List.sublist_mergeSort trans total ordered List.filter_sublist).filter holds
  rw [List.filter_filter] at inside
  simp only [Bool.and_self] at inside
  exact (inside.eq_of_length ((List.mergeSort_perm list le).filter holds).length_eq.symm).symm

end Sorting

theorem TrackEvent.notAfter_iff {left right : TrackEvent} :
    left.notAfter right ↔
      left.tick < right.tick ∨ left.tick = right.tick ∧ left.rank ≤ right.rank := by
  simp [TrackEvent.notAfter]

theorem TrackEvent.notAfter_trans (first second third : TrackEvent)
    (before : first.notAfter second) (onward : second.notAfter third) : first.notAfter third := by
  rw [TrackEvent.notAfter_iff] at before onward ⊢
  omega

theorem TrackEvent.notAfter_total (left right : TrackEvent) :
    left.notAfter right || right.notAfter left := by
  rw [Bool.or_eq_true, TrackEvent.notAfter_iff, TrackEvent.notAfter_iff]
  omega

/-! Notes that follow one another -/

/-- Notes that end no earlier than they start, each over when a later one starts. -/
structure Serial (notes : List Note) : Prop where
  forward : ∀ note ∈ notes, 0 ≤ note.start ∧ note.start ≤ note.stop
  apart : notes.Pairwise fun earlier later => earlier.stop ≤ later.start

/-- The events at the front of a melody track. -/
def openingEvents (name : List UInt8) : List TrackEvent :=
  [⟨0, 0, [0xFF, 0x03] ++ variableLength name.length ++ name⟩, ⟨0, 1, [0xC0, 0x00]⟩]

/-- The events of notes, note by note. -/
def noteEvents (velocity : Nat) (notes : List Note) : List TrackEvent :=
  notes.flatMap fun note => [startEvent velocity note, stopEvent velocity note]

variable {velocity : Nat} {name : List UInt8} {notes : List Note}

theorem melodyEvents_eq : melodyEvents name velocity notes =
    (openingEvents name ++ noteEvents velocity notes).mergeSort TrackEvent.notAfter := rfl

/-- An event of notes falls into the time of one of them. -/
theorem Serial.within (serial : Serial notes) {event : TrackEvent}
    (member : event ∈ noteEvents velocity notes) :
    (2 ≤ event.rank ∧ event.rank ≤ 3) ∧
      ∃ note ∈ notes, note.start ≤ event.tick ∧ event.tick ≤ note.stop := by
  obtain ⟨note, among, own⟩ := List.mem_flatMap.mp member
  have ahead := (serial.forward note among).2
  rcases List.mem_pair.mp own with rfl | rfl
  · exact ⟨by simp [startEvent], note, among, Int.le_refl _, ahead⟩
  · exact ⟨by simp [stopEvent], note, among, ahead, Int.le_refl _⟩

theorem openingEvents_notAfter {opening event : TrackEvent}
    (member : opening ∈ openingEvents name) (nonnegative : 0 ≤ event.tick)
    (ranked : 2 ≤ event.rank) : opening.notAfter event := by
  have early : opening.tick = 0 ∧ opening.rank ≤ 1 := by
    rcases List.mem_pair.mp member with rfl | rfl <;> exact ⟨rfl, by simp⟩
  rw [TrackEvent.notAfter_iff]
  omega

section Around

variable {before after : List Note} {note : Note}

theorem Serial.front (serial : Serial (before ++ after)) : Serial before :=
  ⟨fun other among => serial.forward other (List.mem_append_left _ among),
    (List.pairwise_append.mp serial.apart).1⟩

theorem Serial.back (serial : Serial (before ++ after)) : Serial after :=
  ⟨fun other among => serial.forward other (List.mem_append_right _ among),
    (List.pairwise_append.mp serial.apart).2.1⟩

variable (serial : Serial (before ++ note :: after)) (long : note.start < note.stop)

include serial long

theorem noteEvents_notAfter_own {event own : TrackEvent}
    (member : event ∈ noteEvents velocity before)
    (isOwn : own = startEvent velocity note ∨ own = stopEvent velocity note) :
    event.notAfter own := by
  obtain ⟨ranked, other, among, -, upTo⟩ := serial.front.within member
  have ended := (List.pairwise_append.mp serial.apart).2.2 other among note List.mem_cons_self
  rw [TrackEvent.notAfter_iff]
  rcases isOwn with rfl | rfl <;> simp only [startEvent, stopEvent] <;> omega

theorem own_notAfter_noteEvents {event own : TrackEvent}
    (isOwn : own = startEvent velocity note ∨ own = stopEvent velocity note)
    (member : event ∈ noteEvents velocity after) : own.notAfter event := by
  have rest : Serial ([note] ++ after) := serial.back
  obtain ⟨ranked, other, among, onward, -⟩ := rest.back.within member
  have ended := (List.pairwise_cons.mp rest.apart).1 other among
  rw [TrackEvent.notAfter_iff]
  rcases isOwn with rfl | rfl <;> simp only [startEvent, stopEvent] <;> omega

/-- A note of at least one tick stands in the track as its two events side by side, behind
those of the notes before it and in front of those of the notes after it. -/
theorem melodyEvents_around :
    melodyEvents name velocity (before ++ note :: after) =
      melodyEvents name velocity before ++
        startEvent velocity note :: stopEvent velocity note ::
          (noteEvents velocity after).mergeSort TrackEvent.notAfter := by
  have start := (serial.forward note (by simp)).1
  have behind : ∀ event ∈ openingEvents name ++ noteEvents velocity before,
      ∀ own ∈ [startEvent velocity note, stopEvent velocity note], event.notAfter own := by
    intro event member own isOwn
    rcases List.mem_append.mp member with opening | among
    · apply openingEvents_notAfter opening
      · rcases List.mem_pair.mp isOwn with rfl | rfl
        · exact start
        · exact Int.le_trans start (Int.le_of_lt long)
      · rcases List.mem_pair.mp isOwn with rfl | rfl <;> simp [startEvent, stopEvent]
    · exact noteEvents_notAfter_own serial long among (List.mem_pair.mp isOwn)
  have ahead : ∀ own ∈ [startEvent velocity note, stopEvent velocity note],
      ∀ event ∈ noteEvents velocity after, own.notAfter event :=
    fun own isOwn event among =>
      own_notAfter_noteEvents serial long (List.mem_pair.mp isOwn) among
  have apart : ∀ event ∈ openingEvents name ++ noteEvents velocity before,
      ∀ other ∈ [startEvent velocity note, stopEvent velocity note] ++ noteEvents velocity after,
        event.notAfter other := by
    intro event member other among
    rcases List.mem_append.mp among with own | later
    · exact behind event member other own
    · exact TrackEvent.notAfter_trans _ _ _ (behind event member _ List.mem_cons_self)
        (ahead _ List.mem_cons_self other later)
  have own : [startEvent velocity note, stopEvent velocity note].mergeSort TrackEvent.notAfter =
      [startEvent velocity note, stopEvent velocity note] :=
    List.mergeSort_of_pairwise (List.pairwise_pair.mpr (TrackEvent.notAfter_iff.mpr (.inl long)))
  have split : openingEvents name ++ noteEvents velocity (before ++ note :: after) =
      (openingEvents name ++ noteEvents velocity before) ++
        ([startEvent velocity note, stopEvent velocity note] ++ noteEvents velocity after) := by
    simp [noteEvents]
  rw [melodyEvents_eq, split,
    mergeSort_append TrackEvent.notAfter_trans TrackEvent.notAfter_total apart,
    mergeSort_append TrackEvent.notAfter_trans TrackEvent.notAfter_total ahead, own]
  rfl

end Around

/-! The sounds of a track -/

/-- The pitch that an event starts. -/
def TrackEvent.starts? (event : TrackEvent) : Option UInt8 :=
  match event.octets with
  | [0x90, pitch, _] => some pitch
  | _ => none

/-- The pitch that an event stops. -/
def TrackEvent.stops? (event : TrackEvent) : Option UInt8 :=
  match event.octets with
  | [0x80, pitch, _] => some pitch
  | _ => none

@[simp] theorem starts?_startEvent (note : Note) :
    (startEvent velocity note).starts? = some note.pitch.toUInt8 := rfl

@[simp] theorem starts?_stopEvent (note : Note) : (stopEvent velocity note).starts? = none := rfl

@[simp] theorem stops?_startEvent (note : Note) : (startEvent velocity note).stops? = none := rfl

@[simp] theorem stops?_stopEvent (note : Note) :
    (stopEvent velocity note).stops? = some note.pitch.toUInt8 := rfl

/-- The events that start a sound. -/
def startsOf (track : List TrackEvent) : List TrackEvent :=
  track.filter fun event => event.starts?.isSome

/-- The events that stop a sound. -/
def stopsOf (track : List TrackEvent) : List TrackEvent :=
  track.filter fun event => event.stops?.isSome

theorem startsOf_unsorted (name : List UInt8) (velocity : Nat) (notes : List Note) :
    startsOf (openingEvents name ++ noteEvents velocity notes) =
    notes.map (startEvent velocity) := by
  have opening : startsOf (openingEvents name) = [] := by
    simp [startsOf, openingEvents, TrackEvent.starts?]
  rw [startsOf, List.filter_append, ← startsOf, opening, List.nil_append]
  induction notes with
  | nil => rfl
  | cons note notes ih => simp_all [noteEvents]

theorem stopsOf_unsorted (name : List UInt8) (velocity : Nat) (notes : List Note) :
    stopsOf (openingEvents name ++ noteEvents velocity notes) =
    notes.map (stopEvent velocity) := by
  have opening : stopsOf (openingEvents name) = [] := by
    simp [stopsOf, openingEvents, TrackEvent.stops?]
  rw [stopsOf, List.filter_append, ← stopsOf, opening, List.nil_append]
  induction notes with
  | nil => rfl
  | cons note notes ih => simp_all [noteEvents]

/-- The sounds of a track start in the order of its notes. -/
theorem startsOf_melodyEvents (serial : Serial notes) :
    startsOf (melodyEvents name velocity notes) = notes.map (startEvent velocity) := by
  have unsorted := startsOf_unsorted name velocity notes
  rw [melodyEvents_eq, startsOf,
    filter_mergeSort TrackEvent.notAfter_trans TrackEvent.notAfter_total, ← startsOf, unsorted]
  rw [← startsOf, unsorted]
  refine List.pairwise_map.mpr (serial.apart.imp_of_mem ?_)
  intro earlier later among _ ended
  have ahead := (serial.forward earlier among).2
  rw [TrackEvent.notAfter_iff]
  simp only [startEvent]
  omega

/-- The sounds of a track stop in the order of its notes. -/
theorem stopsOf_melodyEvents (serial : Serial notes) :
    stopsOf (melodyEvents name velocity notes) = notes.map (stopEvent velocity) := by
  have unsorted := stopsOf_unsorted name velocity notes
  rw [melodyEvents_eq, stopsOf,
    filter_mergeSort TrackEvent.notAfter_trans TrackEvent.notAfter_total, ← stopsOf, unsorted]
  rw [← stopsOf, unsorted]
  refine List.pairwise_map.mpr (serial.apart.imp_of_mem ?_)
  intro earlier later _ among ended
  have ahead := (serial.forward later among).2
  rw [TrackEvent.notAfter_iff]
  simp only [stopEvent]
  omega

end Jianpu.Midi
