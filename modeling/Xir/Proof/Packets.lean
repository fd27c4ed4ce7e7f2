import Xir.Impl.GoRuntime.Hyperlane
import Xir.Impl.GoRuntime.LayerZero
import Xir.Impl.XirLab.LayerZero

/-!
# The packed formats of the two carriers

A Hyperlane message is its seven fields, and these are the message's
(`message_codec`). The two decoders of LayerZero packets accept the same strings
and read the same fields from them, which are all of the packet
(`decoders_agree`).
-/

namespace Xir.Impl

/-! ## Fields -/

theorem copy32_toList (v : GoBytes32) : copy32 v.toList = v := by
  ext i hi
  simp [copy32, List.getD_eq_getElem?_getD]

theorem toList_copy32 {b : GoBytes} (h : b.length = 32) : (copy32 b).toList = b := by
  refine List.ext_getElem (by simp [h]) fun i _ hi => ?_
  simp [copy32, List.getD_eq_getElem?_getD, hi]

namespace BigEndian

theorem uint32_bytes (v : UInt32) : uint32 (Uint.bytes 4 v.toNat) = v := by
  have hv : v.toNat % 256 ^ 4 = v.toNat := Nat.mod_eq_of_lt v.toNat_lt
  rw [uint32, List.take_of_length_le (by simp), Uint.value_bytes, hv, UInt32.ofNat_toNat]

/-- The number of a field of 4 bytes. -/
theorem toNat_uint32 {b : GoBytes} (h : b.length = 4) : (uint32 b).toNat = Uint.value b := by
  have hlt := Uint.value_lt b
  rw [h] at hlt
  rw [uint32, List.take_of_length_le h.le, UInt32.toNat_ofNat_of_lt' hlt]

/-- The number of a field of 8 bytes. -/
theorem toNat_uint64 {b : GoBytes} (h : b.length = 8) : (uint64 b).toNat = Uint.value b := by
  have hlt := Uint.value_lt b
  rw [h] at hlt
  rw [uint64, List.take_of_length_le h.le, UInt64.toNat_ofNat_of_lt' hlt]

end BigEndian

/-- A field holds the bytes of its number. -/
theorem bytes_value_slice {l : GoBytes} {a b n : Nat} (h : b ≤ l.length) (hn : b - a = n) :
    Uint.bytes n (Uint.value (slice l a b)) = slice l a b := by
  have hl : (slice l a b).length = n := (length_slice h).trans hn
  have hb := Uint.bytes_value (slice l a b)
  rwa [hl] at hb

/-- The first byte of a string that has one. -/
theorem getD_zero {l : GoBytes} (h : 0 < l.length) : [l.getD 0 0] = slice l 0 1 := by
  match l, h with
  | b :: l, _ => rfl

/-! ## Hyperlane messages -/

namespace Hyperlane

/-- The values of a message. -/
@[ext] structure Fields where
  version : UInt8
  nonce : UInt32
  origin : UInt32
  sender : GoBytes32
  destination : UInt32
  recipient : GoBytes32
  body : GoBytes
  deriving DecidableEq

def Fields.format (f : Fields) : Message :=
  formatMessage f.version f.nonce f.origin f.sender f.destination f.recipient f.body

/-- What the accessors return. -/
def Message.fields (m : Message) : Fields where
  version := m.version
  nonce := m.nonce
  origin := m.origin
  sender := m.sender
  destination := m.destination
  recipient := m.recipient
  body := m.body

theorem Message.validate_eq_ok {m : Message} : m.validate = .ok () ↔ BodyOffset ≤ m.length := by
  rw [validate, revertIf_eq_ok, not_lt]

/-- The fields, one after the other. -/
theorem formatMessage_eq (f : Fields) :
    f.format = [f.version] ++ (Uint.bytes 4 f.nonce.toNat ++ (Uint.bytes 4 f.origin.toNat ++ (f.sender.toList ++
      (Uint.bytes 4 f.destination.toNat ++ (f.recipient.toList ++ f.body))))) := by
  simp only [Fields.format, formatMessage, BigEndian.appendUint32, List.append_assoc]

theorem length_format (f : Fields) : f.format.length = BodyOffset + f.body.length := by
  rw [formatMessage_eq]
  simp only [List.length_append, List.length_singleton, Uint.length_bytes, Vector.length_toList, BodyOffset]
  omega

theorem validate_format (f : Fields) : f.format.validate = .ok () := by
  rw [Message.validate_eq_ok, length_format]
  exact Nat.le_add_right _ _

/-- Where the fields of a message are. -/
theorem slices_format (f : Fields) : slice f.format 1 5 = Uint.bytes 4 f.nonce.toNat ∧
    slice f.format 5 9 = Uint.bytes 4 f.origin.toNat ∧ slice f.format 9 41 = f.sender.toList ∧
    slice f.format 41 45 = Uint.bytes 4 f.destination.toNat ∧ slice f.format 45 77 = f.recipient.toList ∧
    f.format.drop 77 = f.body := by
  rw [formatMessage_eq]
  refine ⟨?_, ?_, ?_, ?_, ?_, ?_⟩ <;>
    simp (disch := simp) only [slice_skip, slice_first, drop_skip, List.length_singleton, Uint.length_bytes,
      Vector.length_toList, Nat.reduceSub, List.drop_zero]

/-- What the accessors of a message that is long enough read. -/
theorem fields_eq {m : Message} (h : 77 ≤ m.length) : m.fields = {
    version := m.getD 0 0
    nonce := BigEndian.uint32 (slice m 1 5)
    origin := BigEndian.uint32 (slice m 5 9)
    sender := copy32 (slice m 9 41)
    destination := BigEndian.uint32 (slice m 41 45)
    recipient := copy32 (slice m 45 77)
    body := m.drop 77 } := by
  have long : ∀ {β : Type} {k : Nat} {x y : β}, k ≤ 77 → (if m.length < k then x else y) = y :=
    fun hk => if_neg (by omega)
  ext1 <;> exact long (by decide)

/-- The accessors of a message return what it was made of. -/
theorem fields_format (f : Fields) : f.format.fields = f := by
  obtain ⟨nonce, origin, sender, destination, recipient, body⟩ := slices_format f
  have version : f.format.getD 0 0 = f.version := by
    rw [formatMessage_eq]
    rfl
  rw [fields_eq ((length_format f).ge.trans' (Nat.le_add_right _ _)), version, nonce, origin, sender, destination,
    recipient, body]
  simp only [BigEndian.uint32_bytes, copy32_toList]

/-- A message is made of what its accessors return. -/
theorem format_fields {m : Message} (h : m.validate = .ok ()) : m.fields.format = m := by
  have hl : 77 ≤ m.length := Message.validate_eq_ok.mp h
  have number :
      ∀ {a : Nat}, a + 4 ≤ 77 → Uint.bytes 4 (BigEndian.uint32 (slice m a (a + 4))).toNat = slice m a (a + 4) := by
    intro a ha
    rw [BigEndian.toNat_uint32 ((length_slice (by omega)).trans (Nat.add_sub_cancel_left _ _))]
    exact bytes_value_slice (by omega) (Nat.add_sub_cancel_left _ _)
  have word : ∀ {a : Nat}, a + 32 ≤ 77 → (copy32 (slice m a (a + 32))).toList = slice m a (a + 32) :=
    fun ha => toList_copy32 ((length_slice (by omega)).trans (Nat.add_sub_cancel_left _ _))
  rw [formatMessage_eq, fields_eq hl]
  dsimp only
  -- Each field is a part of the message, and each ends where the next one starts.
  rw [getD_zero (by omega), number (by decide), number (by decide), word (by decide), number (by decide),
    word (by decide)]
  simp only [slice_append_drop, Nat.reduceLeDiff, Nat.reduceAdd, List.drop_zero]

theorem format_inj {f f' : Fields} : f.format = f'.format ↔ f = f' := by
  refine ⟨fun h => ?_, congrArg Fields.format⟩
  rw [← fields_format f, h, fields_format f']

/-- The accessors of a formatted message return its values, a message is valid if and only if
formatting what its accessors return gives it back, and messages are equal if and only if their
values are. The identifier of a message is the digest of just its bytes. -/
theorem message_codec [Digests] :
    (∀ f : Fields, f.format.validate = .ok () ∧ f.format.fields = f) ∧
      (∀ m : Message, m.validate = .ok () ↔ m.fields.format = m) ∧
      (∀ f f' : Fields, f.format = f'.format ↔ f = f') ∧ ∀ m : Message, messageID m = Digests.keccak256 m := by
  refine ⟨fun f => ⟨validate_format f, fields_format f⟩, fun m => ⟨format_fields, fun h => ?_⟩, fun f f' => format_inj,
    fun m => rfl⟩
  rw [← h]
  exact validate_format _

end Hyperlane

/-! ## LayerZero packets -/

/-- What the hash of a packet's payload is of. -/
def XirLab.LayerZeroPacket.payload (p : XirLab.LayerZeroPacket) : GoBytes := p.guid ++ p.message

/-- The fields of a packet, packed. -/
def XirLab.LayerZeroPacket.pack (p : XirLab.LayerZeroPacket) : GoBytes :=
  Uint.bytes 1 p.version ++ (Uint.bytes 8 p.nonce ++ (Uint.bytes 4 p.sourceEID ++ (p.sender ++
    (Uint.bytes 4 p.destinationEID ++ (p.receiver ++ (p.guid ++ p.message))))))

namespace LayerZero

open XirLab (LayerZeroPacket)

/-- What both decoders accept. -/
structure Accepted (encoded : GoBytes) : Prop where
  length : 113 ≤ encoded.length
  version : encoded.getD 0 0 = 1
  receiver : slice encoded 49 61 = List.replicate 12 0

/-- The fields of a packet, as Python has them. -/
def Packet.toPython (p : Packet) : LayerZeroPacket where
  encoded := p.encoded
  header := p.header
  version := p.version.toNat
  nonce := p.nonce.toNat
  sourceEID := p.sourceEID.toNat
  sender := p.sender.toList
  destinationEID := p.destinationEID.toNat
  receiver := p.receiver.toList
  guid := p.guid.toList
  message := p.message
  payloadHash := p.payloadHash.toList

section

variable [Digests] {encoded encoded' : GoBytes} {p p' : Packet}

/-- The packet that a string is decoded to. -/
def packetOf (encoded : GoBytes) : Packet where
  encoded
  header := encoded.take 81
  version := encoded.getD 0 0
  nonce := BigEndian.uint64 (slice encoded 1 9)
  sourceEID := BigEndian.uint32 (slice encoded 9 13)
  sender := copy32 (slice encoded 13 45)
  destinationEID := BigEndian.uint32 (slice encoded 45 49)
  receiver := copy32 (slice encoded 49 81)
  guid := copy32 (slice encoded 81 113)
  message := encoded.drop 113
  payloadHash := Digests.keccak256 (encoded.drop 81)

theorem decodePacket_eq_ok : decodePacket encoded = .ok p ↔ Accepted encoded ∧ p = packetOf encoded := by
  unfold decodePacket
  rw [revertIf_bind, revertIf_bind, bind_eq_ok]
  have receiver : 113 ≤ encoded.length → ((∃ b, (packetOf encoded).receiverAddress = .ok b) ↔
      slice encoded 49 61 = List.replicate 12 0) := fun hl => by
    have hr : (packetOf encoded).receiver.toList.take 12 = slice encoded 49 61 := by
      rw [packetOf, toList_copy32 (length_slice (by omega)), take_slice (by decide)]
    unfold Packet.receiverAddress
    simp only [revertIf_bind, pure_eq_ok, hr, not_not, exists_and_left, exists_eq', and_true]
  constructor
  · rintro ⟨hl, hv, b, hr, hp⟩
    have hl : 113 ≤ encoded.length := not_lt.mp hl
    exact ⟨⟨hl, not_not.mp hv, (receiver hl).mp ⟨b, hr⟩⟩, (pure_eq_ok.mp hp).symm⟩
  · rintro ⟨⟨hl, hv, hr⟩, rfl⟩
    obtain ⟨b, hr⟩ := (receiver hl).mpr hr
    exact ⟨not_lt.mpr hl, not_not.mpr hv, b, hr, rfl⟩

/-- The numbers and the arrays of a packet hold the same as the parts of the string. -/
theorem toPython_packetOf (h : 113 ≤ encoded.length) : (packetOf encoded).toPython = {
    encoded
    header := encoded.take 81
    version := (encoded.getD 0 0).toNat
    nonce := Uint.value (slice encoded 1 9)
    sourceEID := Uint.value (slice encoded 9 13)
    sender := slice encoded 13 45
    destinationEID := Uint.value (slice encoded 45 49)
    receiver := slice encoded 49 81
    guid := slice encoded 81 113
    message := encoded.drop 113
    payloadHash := (Digests.keccak256 (encoded.drop 81)).toList } := by
  have part : ∀ {a b : Nat}, b ≤ 113 → (slice encoded a b).length = b - a := fun hb => length_slice (by omega)
  simp only [Packet.toPython, packetOf]
  rw [BigEndian.toNat_uint64 (part (by decide)), BigEndian.toNat_uint32 (part (by decide)),
    BigEndian.toNat_uint32 (part (by decide)), toList_copy32 (part (by decide)), toList_copy32 (part (by decide)),
    toList_copy32 (part (by decide))]

theorem python_decodePacket_eq_ok {q : LayerZeroPacket} :
    XirLab.decodePacket encoded = .ok q ↔ Accepted encoded ∧ q = (packetOf encoded).toPython := by
  unfold XirLab.decodePacket
  rw [revertIf_bind, revertIf_bind, bind_eq_ok]
  have version : (encoded.getD 0 0).toNat = XirLab.PACKET_VERSION ↔ encoded.getD 0 0 = 1 := by
    show (encoded.getD 0 0).toNat = (1 : UInt8).toNat ↔ _
    exact UInt8.toNat_inj
  have receiver : 113 ≤ encoded.length → ((∃ t, (packetOf encoded).toPython.receiverAddress = .ok t) ↔
      slice encoded 49 61 = List.replicate 12 0) := fun hl => by
    have hn : (slice encoded 49 61).length = 12 := length_slice (by omega)
    have hr : (packetOf encoded).toPython.receiver.take 12 = slice encoded 49 61 := by
      rw [toPython_packetOf hl, take_slice (by decide)]
    have hz : ¬ (slice encoded 49 61).any (· ≠ 0) = true ↔ slice encoded 49 61 = List.replicate 12 0 := by
      rw [List.eq_replicate_iff, hn, List.any_eq_true]
      simp only [decide_eq_true_eq, not_exists, not_and, not_not, true_and]
    unfold LayerZeroPacket.receiverAddress
    simp only [revertIf_bind, pure_eq_ok, hr, hz, exists_and_left, exists_eq', and_true]
  constructor
  · rintro ⟨hl, hv, t, hr, hq⟩
    have hl : 113 ≤ encoded.length := not_lt.mp hl
    have hp := toPython_packetOf hl
    exact ⟨⟨hl, version.mp (not_not.mp hv), (receiver hl).mp ⟨t, hp ▸ hr⟩⟩, hp ▸ (pure_eq_ok.mp hq).symm⟩
  · rintro ⟨⟨hl, hv, hr⟩, rfl⟩
    obtain ⟨t, hr⟩ := (receiver hl).mpr hr
    have hp := toPython_packetOf hl
    exact ⟨not_lt.mpr hl, not_not.mpr (version.mpr hv), t, hp ▸ hr, pure_eq_ok.mpr hp.symm⟩

/-- The parts of a packet, packed, are the packet. -/
theorem pack_packetOf (h : 113 ≤ encoded.length) : (packetOf encoded).toPython.pack = encoded := by
  have number :
      ∀ {a b : Nat} (n : Nat), b ≤ 113 → b - a = n →
      Uint.bytes n (Uint.value (slice encoded a b)) = slice encoded a b :=
    fun n hb hn => bytes_value_slice (by omega) hn
  have version : Uint.bytes 1 (encoded.getD 0 0).toNat = slice encoded 0 1 := by
    rw [← getD_zero (by omega), ← Uint.value_singleton]
    exact Uint.bytes_value [encoded.getD 0 0]
  rw [toPython_packetOf h, LayerZeroPacket.pack]
  dsimp only
  -- Each part ends where the next one starts.
  rw [version, number 8 (by decide) rfl, number 4 (by decide) rfl, number 4 (by decide) rfl]
  simp only [slice_append_drop, Nat.reduceLeDiff, List.drop_zero]

/-- The header and what the payload's hash is of are the packet. -/
theorem header_append_payload (h : 113 ≤ encoded.length) :
    (packetOf encoded).header ++ (packetOf encoded).toPython.payload = encoded ∧
      (packetOf encoded).payloadHash = Digests.keccak256 (packetOf encoded).toPython.payload := by
  have hp : (packetOf encoded).toPython.payload = encoded.drop 81 := by
    rw [toPython_packetOf h, LayerZeroPacket.payload]
    exact slice_append_drop (by decide)
  rw [hp]
  exact ⟨List.take_append_drop 81 encoded, rfl⟩

/-- Distinct strings with one digest. -/
def Collision (x y : GoBytes) : Prop := x ≠ y ∧ Digests.keccak256 x = Digests.keccak256 y

/-- The two decoders accept the same strings, with the same fields. A packet is the packing of
its fields, and its header followed by what its payload hash is of, so that packets with one
header and one payload hash are the same, unless their payloads collide. -/
theorem decoders_agree :
    (∀ encoded, (∃ p, decodePacket encoded = .ok p) ↔ Accepted encoded) ∧
    (∀ encoded q, XirLab.decodePacket encoded = .ok q ↔ ∃ p, decodePacket encoded = .ok p ∧ q = p.toPython) ∧
    (∀ encoded p, decodePacket encoded = .ok p → p.toPython.pack = encoded ∧ p.header.length = 81 ∧
      p.header ++ p.toPython.payload = encoded ∧ p.payloadHash = Digests.keccak256 p.toPython.payload) ∧
    ∀ encoded encoded' p p', decodePacket encoded = .ok p → decodePacket encoded' = .ok p' → p.header = p'.header →
      p.payloadHash = p'.payloadHash → p = p' ∨ Collision p.toPython.payload p'.toPython.payload := by
  refine ⟨fun encoded => ?_, fun encoded q => ?_, fun encoded p h => ?_, fun encoded encoded' p p' h h' hh hd => ?_⟩
  · simp only [decodePacket_eq_ok, exists_and_left, exists_eq, and_true]
  · rw [python_decodePacket_eq_ok]
    simp only [decodePacket_eq_ok, and_assoc, exists_and_left, exists_eq_left]
  · obtain ⟨accepted, rfl⟩ := decodePacket_eq_ok.mp h
    have hl := accepted.length
    exact ⟨pack_packetOf hl, List.length_take_of_le (by omega), header_append_payload hl⟩
  · obtain ⟨accepted, rfl⟩ := decodePacket_eq_ok.mp h
    obtain ⟨accepted', rfl⟩ := decodePacket_eq_ok.mp h'
    obtain ⟨whole, digest⟩ := header_append_payload accepted.length
    obtain ⟨whole', digest'⟩ := header_append_payload accepted'.length
    by_cases hp : (packetOf encoded).toPython.payload = (packetOf encoded').toPython.payload
    · left
      rw [← whole, ← whole', hh, hp]
    · exact .inr ⟨hp, digest.symm.trans (hd.trans digest')⟩

end

/-- The seventh packet from endpoint 30101 to endpoint 30102. -/
def seventh : GoBytes :=
  1 :: [0, 0, 0, 0, 0, 0, 0, 7] ++ [0, 0, 117, 149] ++ (List.replicate 12 0 ++ List.replicate 20 170) ++
    [0, 0, 117, 150] ++ (List.replicate 12 0 ++ List.replicate 20 187) ++ List.replicate 32 204 ++ [1, 2, 3]

theorem decoders_agree_seventh :
    let _ : Digests := ⟨copy32, copy32⟩
    ∃ p q, decodePacket seventh = .ok p ∧ XirLab.decodePacket seventh = .ok q ∧
      (q.nonce, q.sourceEID, q.destinationEID, q.message) = (7, 30101, 30102, [1, 2, 3]) ∧ q.pack = seventh ∧
      (p = p ∨ Collision p.toPython.payload p.toPython.payload) := by
  let _ : Digests := ⟨copy32, copy32⟩
  obtain ⟨p, hp⟩ := (decoders_agree.1 seventh).mpr ⟨by decide, by decide, by decide⟩
  have hq : XirLab.decodePacket seventh = .ok p.toPython := (decoders_agree.2.1 seventh _).mpr ⟨p, hp, rfl⟩
  have packed := (decoders_agree.2.2.1 seventh p hp).1
  have once := decoders_agree.2.2.2 seventh seventh p p hp hp rfl rfl
  refine ⟨p, p.toPython, hp, hq, ?_, packed, once⟩
  obtain ⟨-, rfl⟩ := decodePacket_eq_ok.mp hp
  rw [toPython_packetOf (by decide)]
  decide

end LayerZero

end Xir.Impl
