import BuildCapture.Envelope
import BuildCapture.Proofs.Json.Indented
import BuildCapture.Proofs.Snapshot.RoundTrip
set_option autoImplicit false

namespace BuildCapture

open Json

namespace Json.Codec

theorem word32_lawful : word32.Lawful where
  read_write n _ _ := by
    have bounds : (0 : Int) ≤ n.toNat ∧ (n.toNat : Int) ≤ UInt32.size - 1 := by
      have := n.toNat_lt_size
      omega
    show (readInt _ _ _ (Value.tree (.int n.toNat))).map _ = _
    rw [readInt_tree _ bounds]
    simp [Except.map]
  fits n := by
    have := n.toNat_lt
    exact fitsWord_of_bounds (by omega) (by omega)

@[simp] theorem word32_depth (n : Nat) : word32.DepthAtMost n := fun _ => Nat.zero_le n

end Json.Codec

namespace Snapshot

theorem ofJson_layout (s : Snapshot) (indent : Bool) {after : List Char} (blanks : Blanks after) :
    ofJson (String.ofList (s.toValue.layout indent ++ after)) = .ok s :=
  Codec.decode_layout record_lawful.codec s (record_depth 123 s) indent blanks

end Snapshot

namespace Envelope

theorem record_lawful : record.Lawful where
  distinct := by decide
  fields := by
    simp [record, Snapshot.record_lawful.codec, Codec.string_lawful.list, Codec.string_lawful,
      Codec.word32_lawful]
  build_parts _ := rfl

theorem record_depth (n : Nat) : record.codec.DepthAtMost (n + 5) :=
  Record.codec_depth (by simp [record, Snapshot.record_depth])

theorem ofJson_layout (e : Envelope) (indent : Bool) {after : List Char} (blanks : Blanks after) :
    ofJson (String.ofList (e.toValue.layout indent ++ after)) = .ok e :=
  Codec.decode_layout record_lawful.codec e (record_depth 122 e) indent blanks

theorem exists_write_eq (e : Envelope) :
    ∃ rest, e.toValue.write = "\x7b\"data\":" ++ e.data.toJson ++ "," ++ rest := by
  have data : stringWire "data" = "\"data\"".toList := by decide
  let others := Value.memberWires (record.members e).tail
  refine ⟨String.ofList ([','].intercalate others ++ ['\x7d']), String.ext ?_⟩
  show String.toList (String.ofList (Value.wire (.object (record.members e)))) = _
  simp [Value.wire, others, Record.members, record, RecordFields.write, Value.memberWires, data,
    Snapshot.toJson, Codec.encode, Value.write, RecordField.required]

end Envelope

end BuildCapture
