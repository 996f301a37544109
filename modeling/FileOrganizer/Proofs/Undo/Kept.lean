import FileOrganizer.Proofs.Json.Decode
import FileOrganizer.Proofs.Json.RoundTrip
import FileOrganizer.Undo.Log

/-! A log that was kept in a file is read back as it was. -/

namespace FileOrganizer

open FileOrganizer.Tree

variable {t : Tree} {l : UndoLog} {r : UndoRecord} {who : Actor} {folder : Path}

/-- The moment can be told from its written form. -/
def Instant.Legible (i : Instant) : Prop := Instant.ofLenient? (i.text "Z") = some i

lemma Decode.moment_text {i : Instant} (h : i.Legible) : Decode.moment (.str (i.text "Z")) = .ok i := by
  have hread : Instant.ofLenient? (i.text "Z") = some i := h
  simp only [Decode.moment, Decode.text, bind, Except.bind, hread]

lemma TransferKind.ofJson_text (k : TransferKind) : TransferKind.ofJson (.str k.text) = .ok k := by
  cases k with
  | move => rfl
  | copy => rfl

namespace UndoRecord

lemma decode_toJson (h : r.time.Legible) : record.decode r.toJson = .ok r := by
  have htime := Decode.moment_text h
  have hmode := TransferKind.ofJson_text r.mode
  simp [Decode.Record.decode, toJson, Decode.Record.ofMembers, Decode.Record.takeMembers, record, Decode.path,
    Decode.text, Except.map, htime, hmode, Except.bind, Decode.required, bind, pure, Except.pure]

end UndoRecord

namespace UndoLog

/-- Every moment in the log can be told from its written form. -/
structure Legible (l : UndoLog) : Prop where
  created : l.created.Legible
  records : ∀ r ∈ l.records, r.time.Legible

lemma decode_toJson (h : l.Legible) : record.decode l.toJson = .ok l := by
  have htime := Decode.moment_text h.created
  have hmode := TransferKind.ofJson_text l.mode
  have hall : Decode.all UndoRecord.record.decode (l.records.map UndoRecord.toJson) = .ok l.records :=
    Decode.all_map fun r hr => UndoRecord.decode_toJson (h.records r hr)
  simp [Decode.Record.decode, toJson, Decode.Record.ofMembers, Decode.Record.takeMembers, record, Decode.path,
    Decode.text, Except.map, htime, hmode, Except.bind, Decode.required, bind, pure, Except.pure, Decode.list, hall]

lemma legible_toJson (l : UndoLog) : l.toJson.Legible := by
  have hrecords : Json.LegibleAll (l.records.map UndoRecord.toJson) :=
    Json.legible_map fun r _ => by simp [UndoRecord.toJson, Json.Legible, Json.LegibleMembers]
  simpa [toJson, Json.Legible, Json.LegibleMembers] using hrecords

/-- The written form of a log. -/
def bytes (l : UndoLog) : ByteArray := l.toJson.pretty.toUTF8

lemma document_pretty (h : l.Legible) : Decode.document record.decode l.toJson.pretty = .ok l :=
  Decode.document_of (Json.ofText_pretty (legible_toJson l)) (decode_toJson h)

lemma decode?_bytes (l : UndoLog) : Utf8.decode? l.bytes = some l.toJson.pretty := by
  have hvalid : l.toJson.pretty.toByteArray.IsValidUTF8 := l.toJson.pretty.isValidUTF8
  rw [Utf8.decode?, bytes, String.toUTF8_eq_toByteArray, String.fromUTF8?, dif_pos hvalid]
  rfl

theorem load_of_read (h : l.Legible) (hread : t.read who.cwd (file folder) = .ok l.bytes) :
    load who t folder = .ok (some l) := by
  have hhas : t.has who.cwd (file folder) = true := by
    unfold Tree.has
    unfold Tree.read at hread
    split at hread
    · cases hread
    · next hstat => rw [hstat]; rfl
    · cases hread
  have htext : t.readText who.cwd (file folder) = .ok l.toJson.pretty := by
    unfold Tree.readText
    rw [hread]
    simp only [decode?_bytes]
  unfold load
  rw [if_pos hhas, htext]
  simp only [bind, Except.bind]
  rw [document_pretty h]
  rfl

end UndoLog

end FileOrganizer
