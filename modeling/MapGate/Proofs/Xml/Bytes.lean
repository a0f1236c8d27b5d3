import MapGate.Proofs.Text.Bytes
import MapGate.Xml.Tree

/-!
# Documents in bytes

The bytes of a text are read as the document of that text (`ofBytes_toUTF8`),
and no bytes at all are no document (`ofBytes_of_isEmpty`).
-/

namespace MapGate.Xml.Document

theorem ofBytes_toUTF8 (s : String) : ofBytes s.toUTF8 = ofChars s.toList := by
  rw [ofBytes, Text.fromUTF8?_toUTF8]

theorem ofBytes_of_isEmpty {body : ByteArray} (h : body.isEmpty = true) :
    ofBytes body = .error .noRoot := by
  have e : body = "".toUTF8 := ByteArray.size_eq_zero_iff.1 (LawfulBEq.eq_of_beq h)
  have none : eventsFrom [] [] = ([], none) := by rw [eventsFrom]; rfl
  rw [e, ofBytes_toUTF8]
  simp only [ofChars, events, String.toList_empty, none]
  rfl

end MapGate.Xml.Document
