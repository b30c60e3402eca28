import Jianpu.Capture.Exchange
import Jianpu.Capture.Recorder
import Jianpu.CommandLine
import Jianpu.Document
import Jianpu.Document.Envelope
import Jianpu.Document.File
import Jianpu.Drawing.Layout
import Jianpu.Drawing.Svg
import Jianpu.Key
import Jianpu.Key.Reference
import Jianpu.Library
import Jianpu.Library.Archive
import Jianpu.Log
import Jianpu.Main
import Jianpu.Midi.File
import Jianpu.Notation.Melody
import Jianpu.Pitch
import Jianpu.Pitch.Frequency
import Jianpu.Score.Exchange
import Jianpu.Score.Import
import Jianpu.Session
import Jianpu.Session.Script
import Jianpu.Sheet.Export
import Jianpu.Timeline
import Jianpu.Timeline.Playback
import Jianpu.Proofs.Notation.Cutting
import Jianpu.Proofs.Notation.Grammar
import Jianpu.Proofs.Capture.Replay
import Jianpu.Proofs.Capture.SustainedTone
import Jianpu.Proofs.Document.Envelope
import Jianpu.Proofs.Notation.Joining
import Jianpu.Proofs.Notation.Modifiers
import Jianpu.Proofs.Number.Rounding
import Jianpu.Proofs.Pitch.Spelling
import Jianpu.Proofs.Score.Import
import Jianpu.Proofs.Capture.Loop
import Jianpu.Proofs.Session.Occurrence
import Jianpu.Proofs.Session.Sounding
import Jianpu.Proofs.Session.Target
import Jianpu.Proofs.Library.Shelf
import Jianpu.Proofs.Library.Calls
import Jianpu.Proofs.Notation.Appending
import Jianpu.Proofs.Session.Dictation
import Jianpu.Proofs.Document.Shapes
import Jianpu.Proofs.Session.Holding
import Jianpu.Proofs.Session.Release
import Jianpu.Proofs.Session.Derived
import Jianpu.Proofs.Session.Stopping
import Jianpu.Proofs.Capture.Refractory
import Jianpu.Proofs.Timeline.Onsets
import Jianpu.Proofs.Midi.Track
import Jianpu.Proofs.Midi.Timing
import Jianpu.Proofs.Midi.Release
import Jianpu.Proofs.CommandLine.Transcription
import Jianpu.Proofs.Timeline.Schedule
import Jianpu.Proofs.Document.Saving
import Jianpu.Proofs.Document.Transposing
import Jianpu.Proofs.Sheet.Agreement
import Jianpu.Proofs.Drawing.Beams
import Jianpu.Proofs.Drawing.Extent
import Jianpu.Proofs.Sheet.Cards
import Jianpu.Proofs.CommandLine.Endings
import Jianpu.Proofs.Drawing.Heights
import Jianpu.Proofs.Notation.Naming
import Jianpu.Proofs.Notation.Distribution
import Jianpu.Proofs.Pitch.Inverse
import Jianpu.Proofs.Score.Lengths
import Jianpu.Proofs.Drawing.Octaves
import Jianpu.Proofs.Sheet.Sections
import Jianpu.Proofs.CommandLine.Respelling
import Jianpu.Proofs.Document.Reordering
import Jianpu.Proofs.Session.Refusal
import Jianpu.Proofs.Score.Reading
import Jianpu.Proofs.Library.Meanwhile
import Jianpu.Proofs.Drawing.Growth
import Jianpu.Proofs.Drawing.ModifierOrder
import Jianpu.Proofs.Key.Reference
import Jianpu.Proofs.Drawing.Coordinates
