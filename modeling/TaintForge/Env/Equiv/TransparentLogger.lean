import Mathlib.Tactic.IntervalCases
import TaintForge.Env.TransparentLogger

/-!
# What the name server accepts and how it answers

* `DnsQuestion`: a question, as the labels of its name with its type and its class, and its bytes.
* `parseDnsQuery_of_firstQuestion`, `firstQuestion_of_parse`: the queries that are accepted are those
  that start with a question.
* `DnsEcho`: an answer that repeats its query.
* `dns_responder_echoes`: what is read of a packet, what is accepted, and what is answered.
-/

namespace TaintForge

open StructPack (ByteOrder)

/-! ### Questions -/

/-- A label of a name: 1 to 63 bytes. -/
structure DnsLabel where
  bytes : List UInt8
  nonempty : bytes ≠ []
  short : bytes.length < 64

/-- The bytes of a label, after their number. -/
def DnsLabel.encode (label : DnsLabel) : List UInt8 :=
  UInt8.ofNat label.bytes.length :: label.bytes

/-- The bytes of a name that is not compressed: its labels and a zero byte. -/
def encodeName (name : List DnsLabel) : List UInt8 := name.flatMap DnsLabel.encode ++ [0]

/-- A question for a name. -/
structure DnsQuestion where
  name : List DnsLabel
  qtype : ℕ
  qclass : ℕ
  qtype_lt : qtype < 256 ^ 2
  qclass_lt : qclass < 256 ^ 2

namespace DnsQuestion

/-- The bytes of a question. -/
def encode (q : DnsQuestion) : List UInt8 :=
  encodeName q.name ++ (ByteOrder.big.bytes 2 q.qtype ++ ByteOrder.big.bytes 2 q.qclass)

/-- The name as text. -/
def text (q : DnsQuestion) : PyStr :=
  (py ".").intercalate (q.name.map fun label => decodeAscii label.bytes)

theorem length_encode (q : DnsQuestion) : q.encode.length = (encodeName q.name).length + 4 := by
  simp [encode]

end DnsQuestion

/-- A field of the header of a packet. -/
def headerField (packet : List UInt8) (start : ℕ) : ℕ :=
  ByteOrder.big.value (byteSlice packet start (start + 2))

/-- A packet with a header that counts questions, followed by a question. -/
structure FirstQuestion (packet : List UInt8) (q : DnsQuestion) : Prop where
  header : 12 ≤ packet.length
  counted : 1 ≤ headerField packet 4
  bytes : q.encode <+: packet.drop 12

/-! ### The labels of a name -/

/-- The two bits of a length that mark a compressed name are clear in the length of a label. -/
theorem and_0xC0_eq_zero_iff (byte : UInt8) : byte &&& 0xC0 = 0 ↔ byte.toNat < 64 := by
  have h : ∀ n < 256, UInt8.ofNat n &&& 0xC0 = 0 ↔ n < 64 := by decide +kernel
  have hbyte := h byte.toNat byte.toNat_lt
  rwa [UInt8.ofNat_toNat] at hbyte

theorem DnsLabel.toNat_length (label : DnsLabel) :
    (UInt8.ofNat label.bytes.length).toNat = label.bytes.length := by
  have hshort := label.short
  rw [UInt8.toNat_ofNat']
  omega

theorem DnsLabel.length_ne_zero (label : DnsLabel) : UInt8.ofNat label.bytes.length ≠ 0 := by
  intro h
  have hlength := label.toNat_length
  rw [h] at hlength
  exact label.nonempty (List.length_eq_zero_iff.mp hlength.symm)

theorem length_encodeName_cons (label : DnsLabel) (name : List DnsLabel) :
    (encodeName (label :: name)).length = 1 + label.bytes.length + (encodeName name).length := by
  simp only [encodeName, List.flatMap_cons, DnsLabel.encode, List.length_append, List.length_cons]
  omega

/-- What is read of a name lies inside the packet. -/
theorem readLabels_reads (packet : List UInt8) (offset : ℕ) (labels : List PyStr) :
    ∀ read ∈ (readLabels packet offset labels).reads,
      read.1 ≤ read.2 ∧ read.2 ≤ packet.length := by
  fun_induction readLabels packet offset labels with
  | case1 => simp
  | case2 => simp; omega
  | case3 => simp; omega
  | case4 => simp; omega
  | case5 => simp; omega
  | case6 offset labels hinside length _ start stop _ _ hstop rest ih =>
    intro read hread
    rcases List.mem_cons.mp hread with rfl | hread
    · exact ⟨Nat.le_succ offset, by dsimp only; omega⟩
    · rcases List.mem_cons.mp hread with rfl | hread
      · exact ⟨Nat.le_add_right start length.toNat, Nat.le_of_not_lt hstop⟩
      · exact ih read hread

/-- The texts of the failures of a name. -/
theorem readLabels_error (packet : List UInt8) (offset : ℕ) (labels : List PyStr) {parseError : PyStr}
    (h : (readLabels packet offset labels).outcome = .error parseError) :
    parseError ∈ [py "qname_out_of_bounds", py "compressed_qname_not_supported",
      py "label_out_of_bounds"] := by
  fun_induction readLabels packet offset labels with
  | case1 => cases h; simp
  | case2 offset labels hinside hnone =>
    -- the offset is inside the packet
    exact absurd (List.getElem?_eq_none_iff.mp hnone) hinside
  | case3 => cases h
  | case4 => cases h; simp
  | case5 => cases h; simp
  | case6 offset labels hinside length _ start stop _ _ hstop rest ih => exact ih h

/-- A name that is read was there, label by label. -/
theorem readLabels_sound (packet : List UInt8) (offset : ℕ) (labels : List PyStr) {stop : ℕ}
    {texts : List PyStr} (h : (readLabels packet offset labels).outcome = .ok (stop, texts)) :
    ∃ name, packet.drop offset = encodeName name ++ packet.drop stop ∧
      stop = offset + (encodeName name).length ∧
      texts = labels ++ name.map fun label => decodeAscii label.bytes := by
  fun_induction readLabels packet offset labels with
  | case1 => cases h
  | case2 => cases h
  | case3 offset labels hinside start hzero =>
    obtain ⟨rfl, rfl⟩ := Prod.mk.inj (Except.ok.inj h)
    obtain ⟨hlt, hbyte⟩ := List.getElem?_eq_some_iff.mp hzero
    refine ⟨[], ?_, rfl, by simp⟩
    rw [List.drop_eq_getElem_cons hlt, hbyte]
    rfl
  | case4 => cases h
  | case5 => cases h
  | case6 offset labels hinside length hlength start end_ hzero hbits hend rest ih =>
    obtain ⟨name, hname, hstop, htexts⟩ := ih h
    obtain ⟨hlt, hbyte⟩ := List.getElem?_eq_some_iff.mp hlength
    have hshort := (and_0xC0_eq_zero_iff length).mp (not_not.mp hbits)
    have hslice : (byteSlice packet start end_).length = length.toNat := by
      rw [length_byteSlice (Nat.le_of_not_lt hend), Nat.add_sub_cancel_left]
    have hpositive : length.toNat ≠ 0 := fun heq => hzero (UInt8.toNat_inj.mp heq)
    let label : DnsLabel :=
      { bytes := byteSlice packet start end_
        nonempty := fun heq => hpositive (by rw [← hslice, heq]; rfl)
        short := by rw [hslice]; exact hshort }
    refine ⟨label :: name, ?_, ?_, ?_⟩
    · rw [List.drop_eq_getElem_cons hlt, hbyte,
        drop_eq_byteSlice_append (Nat.le_add_right start length.toNat), hname]
      simp [encodeName, DnsLabel.encode, label, hslice, start, end_]
    · rw [hstop, length_encodeName_cons]
      simp only [label, hslice, start, end_]
      omega
    · rw [htexts]
      simp [label]

/-- A name that is there is read. -/
theorem readLabels_complete {packet : List UInt8} {name : List DnsLabel} {rest : List UInt8} {offset : ℕ}
    (h : packet.drop offset = encodeName name ++ rest) (labels : List PyStr) :
    (readLabels packet offset labels).outcome =
      .ok (offset + (encodeName name).length,
        labels ++ name.map fun label => decodeAscii label.bytes) := by
  induction name generalizing offset labels with
  | nil =>
    have hbyte : packet[offset]? = some 0 := by
      rw [← List.head?_drop, h]
      rfl
    obtain ⟨hlt, -⟩ := List.getElem?_eq_some_iff.mp hbyte
    rw [readLabels, if_neg (Nat.not_le.mpr hlt), hbyte]
    simp [encodeName]
  | cons label name ih =>
    have hencode : encodeName (label :: name) ++ rest =
        UInt8.ofNat label.bytes.length :: (label.bytes ++ (encodeName name ++ rest)) := by
      simp [encodeName, DnsLabel.encode]
    rw [hencode] at h
    have hbyte : packet[offset]? = some (UInt8.ofNat label.bytes.length) := by
      rw [← List.head?_drop, h]
      rfl
    obtain ⟨hlt, -⟩ := List.getElem?_eq_some_iff.mp hbyte
    have hbehind : packet.drop (offset + 1) = label.bytes ++ (encodeName name ++ rest) := by
      rw [← List.drop_drop, h]
      rfl
    have hnext : packet.drop (offset + 1 + label.bytes.length) = encodeName name ++ rest := by
      rw [← List.drop_drop, hbehind, List.drop_left]
    have hslice : byteSlice packet (offset + 1) (offset + 1 + label.bytes.length) = label.bytes := by
      rw [byteSlice_eq_take_drop, hbehind, List.take_left]
    have hlength := congrArg List.length hbehind
    rw [List.length_drop, List.length_append] at hlength
    have hbits : UInt8.ofNat label.bytes.length &&& 0xC0 = 0 := by
      rw [and_0xC0_eq_zero_iff, label.toNat_length]
      exact label.short
    rw [readLabels, if_neg (Nat.not_le.mpr hlt), hbyte]
    dsimp only
    rw [if_neg label.length_ne_zero, if_neg (not_not.mpr hbits), label.toNat_length,
      if_neg (by omega)]
    dsimp only
    rw [hslice, ih hnext, length_encodeName_cons, List.append_assoc]
    congr 2
    omega

/-! ### Queries -/

/-- The header of a packet as it is read. -/
theorem unpack_header {packet : List UInt8} (h : 12 ≤ packet.length) :
    ByteOrder.big.unpack [2, 2, 2, 2, 2, 2] (byteSlice packet 0 12) =
      some [headerField packet 0, headerField packet 2, headerField packet 4, headerField packet 6,
        headerField packet 8, headerField packet 10] := by
  have hslice : (byteSlice packet 0 12).length = [2, 2, 2, 2, 2, 2].sum := length_byteSlice h
  obtain ⟨values, hvalues⟩ := ByteOrder.big.unpack_isSome hslice
  have hlength := (ByteOrder.length_of_unpack hvalues).2
  rw [hvalues]
  congr 1
  apply List.ext_getElem?
  intro i
  rcases Nat.lt_or_ge i 6 with hi | hi
  · have hfield : ∀ k, 2 * k + 2 ≤ 12 →
        ((byteSlice packet 0 12).drop (2 * k)).take 2 = byteSlice packet (2 * k) (2 * k + 2) := by
      intro k hk
      rw [byteSlice_eq_take_drop, byteSlice, List.drop_zero, List.drop_take, List.take_take,
        Nat.min_eq_left (by omega)]
    have hwidth : [2, 2, 2, 2, 2, 2][i]? = some 2 := by interval_cases i <;> rfl
    have hstart : ([2, 2, 2, 2, 2, 2].take i).sum = 2 * i := by interval_cases i <;> rfl
    rw [ByteOrder.getElem?_of_unpack hvalues hwidth, hstart, hfield i (by omega)]
    interval_cases i <;> rfl
  · rw [List.getElem?_eq_none (by rw [hlength]; exact hi), List.getElem?_eq_none hi]

/-- The type and the class behind a name as they are read. -/
theorem unpack_tail {qtype qclass : ℕ} (htype : qtype < 256 ^ 2) (hclass : qclass < 256 ^ 2) :
    ByteOrder.big.unpack [2, 2] (ByteOrder.big.bytes 2 qtype ++ ByteOrder.big.bytes 2 qclass) =
      some [qtype, qclass] := by
  have htypeLength := ByteOrder.big.length_bytes 2 qtype
  have hclassLength := ByteOrder.big.length_bytes 2 qclass
  rw [ByteOrder.unpack, if_neg (by rw [List.length_append]; omega), List.drop_left' htypeLength,
    List.take_left' htypeLength, ByteOrder.unpack, if_neg (by omega),
    List.drop_of_length_le (Nat.le_of_eq hclassLength),
    List.take_of_length_le (Nat.le_of_eq hclassLength), ByteOrder.value_bytes _ htype,
    ByteOrder.value_bytes _ hclass]
  rfl

/-- What is read of a packet lies inside it. -/
theorem parseDnsQuery_reads (packet : List UInt8) :
    ∀ read ∈ (parseDnsQuery packet).reads, read.1 ≤ read.2 ∧ read.2 ≤ packet.length := by
  intro read hread
  rcases Nat.lt_or_ge packet.length 12 with hlength | hlength
  · rw [parseDnsQuery, if_pos hlength] at hread
    simp at hread
  rw [parseDnsQuery, if_neg (Nat.not_lt.mpr hlength), unpack_header hlength] at hread
  dsimp only at hread
  have hheader : ∀ r : ℕ × ℕ, r = (0, 12) → r.1 ≤ r.2 ∧ r.2 ≤ packet.length := by
    rintro r rfl
    exact ⟨Nat.zero_le 12, hlength⟩
  split at hread
  · exact hheader read (List.mem_singleton.mp hread)
  rcases List.mem_cons.mp hread with hread | hread
  · exact hheader read hread
  have hname := readLabels_reads packet 12 []
  unfold readQuestion at hread
  dsimp only at hread
  split at hread
  · exact hname read hread
  rcases List.mem_append.mp hread with hread | hread
  · exact hname read hread
  -- the type and the class are read when there are four bytes
  unfold readQuestionTail at hread
  split at hread
  · simp at hread
  · rename_i hinside
    split at hread <;>
      · obtain rfl := List.mem_singleton.mp hread
        exact ⟨by dsimp only; omega, Nat.le_of_not_lt hinside⟩

/-- The texts of the failures: none is that of an exception. -/
def dnsParseErrors : List PyStr :=
  [py "packet_too_short", py "no_questions", py "qname_out_of_bounds",
    py "compressed_qname_not_supported", py "label_out_of_bounds", py "question_tail_out_of_bounds"]

theorem readQuestion_error {packet : List UInt8} {transactionId flags qdcount : ℕ} {parseError : PyStr}
    (h : (readQuestion packet transactionId flags qdcount).outcome = .error parseError) :
    parseError ∈ dnsParseErrors := by
  unfold readQuestion at h
  dsimp only at h
  split at h
  · rename_i texts hname
    obtain rfl := Except.error.inj h
    have hmem := readLabels_error packet 12 [] hname
    simp only [List.mem_cons, List.not_mem_nil, or_false] at hmem
    rcases hmem with rfl | rfl | rfl <;> simp [dnsParseErrors]
  · rename_i offset labels hname
    unfold readQuestionTail at h
    split at h
    · obtain rfl := Except.error.inj h
      simp [dnsParseErrors]
    · rename_i hinside
      have hslice : (byteSlice packet offset (offset + 4)).length = [2, 2].sum := by
        rw [length_byteSlice (Nat.le_of_not_lt hinside), Nat.add_sub_cancel_left]
        rfl
      obtain ⟨values, hvalues⟩ := ByteOrder.big.unpack_isSome hslice
      have hlength := (ByteOrder.length_of_unpack hvalues).2
      obtain ⟨qtype, qclass, rfl⟩ := List.length_eq_two.mp hlength
      rw [hvalues] at h
      cases h

theorem parseDnsQuery_error {packet : List UInt8} {failure : DnsFailure}
    (h : (parseDnsQuery packet).outcome = .error failure) : failure.parseError ∈ dnsParseErrors := by
  rcases Nat.lt_or_ge packet.length 12 with hlength | hlength
  · rw [parseDnsQuery, if_pos hlength] at h
    obtain rfl := Except.error.inj h
    simp [dnsParseErrors]
  rw [parseDnsQuery, if_neg (Nat.not_lt.mpr hlength), unpack_header hlength] at h
  dsimp only at h
  split at h
  · obtain rfl := Except.error.inj h
    simp [dnsParseErrors]
  · dsimp only at h
    cases hquestion : (readQuestion packet (headerField packet 0) (headerField packet 2)
        (headerField packet 4)).outcome with
    | ok query =>
      rw [hquestion] at h
      cases h
    | error parseError =>
      rw [hquestion] at h
      obtain rfl := Except.error.inj h
      exact readQuestion_error hquestion

/-- What is read of a packet that starts with a question. -/
def FirstQuestion.query (packet : List UInt8) (q : DnsQuestion) : DnsQuery :=
  { transactionId := headerField packet 0
    flags := headerField packet 2
    qdcount := headerField packet 4
    query := q.text
    qtype := q.qtype
    qtypeName := dnsQtypeName q.qtype
    qclass := q.qclass
    questionEndOffset := 12 + q.encode.length }

/-- A packet that starts with a question is accepted. -/
theorem parseDnsQuery_of_firstQuestion {packet : List UInt8} {q : DnsQuestion}
    (h : FirstQuestion packet q) : (parseDnsQuery packet).outcome = .ok (FirstQuestion.query packet q) := by
  obtain ⟨rest, hbytes⟩ := h.bytes
  have hname : packet.drop 12 = encodeName q.name ++
      (ByteOrder.big.bytes 2 q.qtype ++ ByteOrder.big.bytes 2 q.qclass ++ rest) := by
    rw [← hbytes, DnsQuestion.encode, List.append_assoc]
  have hend : packet.drop (12 + (encodeName q.name).length) =
      ByteOrder.big.bytes 2 q.qtype ++ ByteOrder.big.bytes 2 q.qclass ++ rest := by
    rw [← List.drop_drop, hname, List.drop_left]
  have hlength := congrArg List.length hend
  simp only [List.length_drop, List.length_append, ByteOrder.length_bytes] at hlength
  have htail : byteSlice packet (12 + (encodeName q.name).length) (12 + (encodeName q.name).length + 4) =
      ByteOrder.big.bytes 2 q.qtype ++ ByteOrder.big.bytes 2 q.qclass := by
    rw [byteSlice_eq_take_drop, hend]
    exact List.take_left' (by simp)
  rw [parseDnsQuery, if_neg (Nat.not_lt.mpr h.header), unpack_header h.header]
  dsimp only
  rw [if_neg (Nat.not_lt.mpr h.counted), readQuestion]
  dsimp only
  rw [readLabels_complete hname]
  dsimp only
  rw [readQuestionTail, if_neg (by omega), htail, unpack_tail q.qtype_lt q.qclass_lt,
    FirstQuestion.query, DnsQuestion.length_encode]
  rfl

/-- A packet that is accepted starts with a question. -/
theorem firstQuestion_of_parse {packet : List UInt8} {query : DnsQuery}
    (h : (parseDnsQuery packet).outcome = .ok query) : ∃ q, FirstQuestion packet q := by
  rcases Nat.lt_or_ge packet.length 12 with hlength | hlength
  · rw [parseDnsQuery, if_pos hlength] at h
    cases h
  rw [parseDnsQuery, if_neg (Nat.not_lt.mpr hlength), unpack_header hlength] at h
  dsimp only at h
  split at h
  · cases h
  rename_i hcount
  cases hnames : (readLabels packet 12 []).outcome with
  | error parseError =>
    simp only [readQuestion, hnames] at h
    cases h
  | ok names =>
    obtain ⟨offset, labels⟩ := names
    obtain ⟨name, hname, hoffset, -⟩ := readLabels_sound packet 12 [] hnames
    simp only [readQuestion, hnames] at h
    rcases Nat.lt_or_ge packet.length (offset + 4) with hshort | hinside
    · rw [readQuestionTail, if_pos hshort] at h
      cases h
    -- the four bytes behind the name are a type and a class
    have htypeLength : (byteSlice packet offset (offset + 2)).length = 2 := by
      rw [length_byteSlice (by omega), Nat.add_sub_cancel_left]
    have hclassLength : (byteSlice packet (offset + 2) (offset + 2 + 2)).length = 2 := by
      rw [length_byteSlice (by omega), Nat.add_sub_cancel_left]
    have htype := ByteOrder.big.value_lt (byteSlice packet offset (offset + 2))
    have hclass := ByteOrder.big.value_lt (byteSlice packet (offset + 2) (offset + 2 + 2))
    rw [htypeLength] at htype
    rw [hclassLength] at hclass
    refine ⟨⟨name, _, _, htype, hclass⟩, hlength, Nat.le_of_not_lt hcount, packet.drop (offset + 4), ?_⟩
    have htypeBytes := ByteOrder.big.bytes_value (byteSlice packet offset (offset + 2))
    have hclassBytes := ByteOrder.big.bytes_value (byteSlice packet (offset + 2) (offset + 2 + 2))
    rw [htypeLength] at htypeBytes
    rw [hclassLength] at hclassBytes
    rw [DnsQuestion.encode, htypeBytes, hclassBytes, hname,
      drop_eq_byteSlice_append (Nat.le_add_right offset 2),
      drop_eq_byteSlice_append (Nat.le_add_right (offset + 2) 2)]
    simp only [List.append_assoc]

/-! ### Answers -/

/-- The bytes that stand for the name at an offset of the same packet. -/
def namePointer (offset : ℕ) : List UInt8 := ByteOrder.big.bytes 2 (0xC000 + offset)

/-- A record of an answer. -/
structure DnsRecord where
  name : List UInt8
  rtype : ℕ
  rclass : ℕ
  ttl : ℕ
  rdata : List UInt8
  rtype_lt : rtype < 256 ^ 2
  rclass_lt : rclass < 256 ^ 2
  ttl_lt : ttl < 256 ^ 4
  rdlength_lt : rdata.length < 256 ^ 2

/-- The bytes of a record. -/
def DnsRecord.encode (record : DnsRecord) : List UInt8 :=
  record.name ++ (ByteOrder.big.bytes 2 record.rtype ++ (ByteOrder.big.bytes 2 record.rclass ++
    (ByteOrder.big.bytes 4 record.ttl ++
      (ByteOrder.big.bytes 2 record.rdata.length ++ record.rdata))))

/-- The header of an answer. -/
def dnsHeader (transactionId flags ancount : ℕ) : List UInt8 :=
  ByteOrder.big.bytes 2 transactionId ++ (ByteOrder.big.bytes 2 flags ++ (ByteOrder.big.bytes 2 1 ++
    (ByteOrder.big.bytes 2 ancount ++ (ByteOrder.big.bytes 2 0 ++ ByteOrder.big.bytes 2 0))))

/-- A question and some records under a header. -/
def dnsPacket (transactionId flags : ℕ) (q : DnsQuestion) (answers : List DnsRecord) : List UInt8 :=
  dnsHeader transactionId flags answers.length ++ (q.encode ++ answers.flatMap DnsRecord.encode)

/-- A packet that answers the first question of another one: the transaction, the question and the
desire for recursion are those of the query, and the records are as many as are counted, for the name
in the question. -/
structure DnsEcho (packet response : List UInt8) (q : DnsQuestion) (answers : List DnsRecord) :
    Prop where
  transaction : byteSlice response 0 2 = byteSlice packet 0 2
  recursion : (headerField response 2).testBit 8 = (headerField packet 2).testBit 8
  answer : (headerField response 2).testBit 15 = true
  question : byteSlice response 12 (12 + q.encode.length) = byteSlice packet 12 (12 + q.encode.length)
  sections : response = byteSlice response 0 12 ++ (q.encode ++ answers.flatMap DnsRecord.encode)
  qdcount : headerField response 4 = 1
  ancount : headerField response 6 = answers.length
  nscount : headerField response 8 = 0
  arcount : headerField response 10 = 0
  names : ∀ record ∈ answers, record.name = namePointer 12

theorem length_dnsHeader (transactionId flags ancount : ℕ) :
    (dnsHeader transactionId flags ancount).length = 12 := by
  simp [dnsHeader]

theorem headerField_append {left right : List UInt8} {start value : ℕ} (hstart : left.length = start)
    (hvalue : value < 256 ^ 2) :
    headerField (left ++ (ByteOrder.big.bytes 2 value ++ right)) start = value := by
  rw [headerField, byteSlice_eq_take_drop, List.drop_left' hstart,
    List.take_left' (ByteOrder.length_bytes _ 2 value), ByteOrder.value_bytes _ hvalue]

/-- The fields of the header of an answer. -/
theorem headerField_dnsHeader {transactionId flags ancount : ℕ} (htransaction : transactionId < 256 ^ 2)
    (hflags : flags < 256 ^ 2) (hancount : ancount < 256 ^ 2) (rest : List UInt8) :
    headerField (dnsHeader transactionId flags ancount ++ rest) 0 = transactionId ∧
      headerField (dnsHeader transactionId flags ancount ++ rest) 2 = flags ∧
      headerField (dnsHeader transactionId flags ancount ++ rest) 4 = 1 ∧
      headerField (dnsHeader transactionId flags ancount ++ rest) 6 = ancount ∧
      headerField (dnsHeader transactionId flags ancount ++ rest) 8 = 0 ∧
      headerField (dnsHeader transactionId flags ancount ++ rest) 10 = 0 := by
  have hassoc : ∀ a b c : List UInt8, a ++ (b ++ c) = a ++ b ++ c := fun a b c =>
    (List.append_assoc a b c).symm
  simp only [dnsHeader, List.append_assoc]
  refine ⟨?_, ?_, ?_, ?_, ?_, ?_⟩
  · have hempty : ([] : List UInt8).length = 0 := rfl
    exact headerField_append hempty htransaction
  · apply headerField_append (by simp) hflags
  · rw [hassoc]
    apply headerField_append (by simp) (by decide)
  · rw [hassoc, hassoc]
    apply headerField_append (by simp) hancount
  · rw [hassoc, hassoc, hassoc]
    apply headerField_append (by simp) (by decide)
  · rw [hassoc, hassoc, hassoc, hassoc]
    apply headerField_append (by simp) (by decide)

theorem dnsResponseFlags_lt (flags : ℕ) : dnsResponseFlags flags < 256 ^ 2 := by
  have hand : flags &&& 0x0100 < 2 ^ 16 :=
    Nat.lt_of_le_of_lt Nat.and_le_right (by decide)
  exact Nat.or_lt_two_pow (Nat.or_lt_two_pow (by decide) (by decide)) hand

theorem dnsResponseFlags_testBit (flags : ℕ) :
    (dnsResponseFlags flags).testBit 8 = flags.testBit 8 ∧
      (dnsResponseFlags flags).testBit 15 = true := by
  simp only [dnsResponseFlags, Nat.testBit_or, Nat.testBit_and]
  constructor
  · simp [Nat.testBit]
  · simp [Nat.testBit]

theorem headerField_lt {packet : List UInt8} {start : ℕ} (h : start + 2 ≤ packet.length) :
    headerField packet start < 256 ^ 2 := by
  have hlt := ByteOrder.big.value_lt (byteSlice packet start (start + 2))
  rwa [length_byteSlice h, Nat.add_sub_cancel_left] at hlt

/-- An answer that is put together from the fields of a query repeats it. -/
theorem dnsEcho_dnsPacket {packet : List UInt8} {q : DnsQuestion} (h : FirstQuestion packet q)
    {answers : List DnsRecord} (hcount : answers.length < 256 ^ 2)
    (hnames : ∀ record ∈ answers, record.name = namePointer 12) :
    DnsEcho packet (dnsPacket (headerField packet 0) (dnsResponseFlags (headerField packet 2)) q answers)
      q answers := by
  have hheader := h.header
  have htransaction : headerField packet 0 < 256 ^ 2 := headerField_lt (by omega)
  have hlength := length_dnsHeader (headerField packet 0) (dnsResponseFlags (headerField packet 2))
    answers.length
  obtain ⟨-, hflags, hqdcount, hancount, hnscount, harcount⟩ :=
    headerField_dnsHeader htransaction (dnsResponseFlags_lt (headerField packet 2)) hcount
      (q.encode ++ answers.flatMap DnsRecord.encode)
  obtain ⟨hrecursion, hanswer⟩ := dnsResponseFlags_testBit (headerField packet 2)
  refine ⟨?_, ?_, ?_, ?_, ?_, hqdcount, hancount, hnscount, harcount, hnames⟩
  · have hpair : (byteSlice packet 0 2).length = 2 := length_byteSlice (by omega)
    have hbytes := ByteOrder.big.bytes_value (byteSlice packet 0 2)
    rw [hpair] at hbytes
    rw [← hbytes, dnsPacket, dnsHeader, byteSlice, List.drop_zero]
    simp only [List.append_assoc]
    exact List.take_left' (ByteOrder.length_bytes _ 2 _)
  · rw [dnsPacket, hflags, hrecursion]
  · rw [dnsPacket, hflags, hanswer]
  · obtain ⟨rest, hbytes⟩ := h.bytes
    rw [byteSlice_eq_take_drop, byteSlice_eq_take_drop, ← hbytes, dnsPacket, List.drop_left' hlength,
      List.take_left, List.take_left]
  · rw [dnsPacket, byteSlice, List.drop_zero, List.take_left' hlength]

/-- The answer starts with the question. -/
theorem firstQuestion_dnsPacket {packet : List UInt8} {q : DnsQuestion} (h : FirstQuestion packet q)
    {answers : List DnsRecord} (hcount : answers.length < 256 ^ 2) :
    FirstQuestion
      (dnsPacket (headerField packet 0) (dnsResponseFlags (headerField packet 2)) q answers) q := by
  have hheader := h.header
  have htransaction : headerField packet 0 < 256 ^ 2 := headerField_lt (by omega)
  have hlength := length_dnsHeader (headerField packet 0) (dnsResponseFlags (headerField packet 2))
    answers.length
  obtain ⟨-, -, hqdcount, -⟩ :=
    headerField_dnsHeader htransaction (dnsResponseFlags_lt (headerField packet 2)) hcount
      (q.encode ++ answers.flatMap DnsRecord.encode)
  refine ⟨?_, ?_, answers.flatMap DnsRecord.encode, ?_⟩
  · rw [dnsPacket, List.length_append, hlength]
    exact Nat.le_add_right 12 _
  · rw [dnsPacket, hqdcount]
  · rw [dnsPacket, List.drop_left' hlength]

/-- The header is packed. -/
theorem pack_dnsHeader {transactionId flags ancount : ℕ} (htransaction : transactionId < 256 ^ 2)
    (hflags : flags < 256 ^ 2) (hancount : ancount < 256 ^ 2) :
    ByteOrder.big.pack
      [(2, transactionId), (2, flags), (2, 1), (2, ancount), (2, 0), (2, 0)] =
      some (dnsHeader transactionId flags ancount) := by
  rw [ByteOrder.pack_of_fits]
  · simp [dnsHeader]
  · simp only [List.forall_mem_cons]
    refine ⟨htransaction, hflags, by decide, hancount, by decide, by decide, ?_⟩
    simp

/-- Every answer is a header, the question and at most one record that points at it. -/
theorem buildDnsAResponse_eq {packet : List UInt8} {answerIp : PyStr} {ttl : ℤ} {response : List UInt8}
    (h : buildDnsAResponse packet answerIp ttl = some (some response)) :
    ∃ q answers, FirstQuestion packet q ∧ answers.length ≤ 1 ∧
      (∀ record ∈ answers, record.name = namePointer 12) ∧
      response = dnsPacket (headerField packet 0) (dnsResponseFlags (headerField packet 2)) q answers := by
  cases hparse : (parseDnsQuery packet).outcome with
  | error failure =>
    simp [buildDnsAResponse, hparse] at h
  | ok query =>
    obtain ⟨q, hq⟩ := firstQuestion_of_parse hparse
    have hquery := parseDnsQuery_of_firstQuestion hq
    rw [hparse] at hquery
    obtain rfl := Except.ok.inj hquery
    have hheader := hq.header
    obtain ⟨rest, hbytes⟩ := hq.bytes
    have hquestion : byteSlice packet 12 (12 + q.encode.length) = q.encode := by
      rw [byteSlice_eq_take_drop, ← hbytes, List.take_left]
    have hpack : ∀ ancount < 256 ^ 2, ByteOrder.big.pack [(2, headerField packet 0),
        (2, dnsResponseFlags (headerField packet 2)), (2, 1), (2, ancount), (2, 0), (2, 0)] =
        some (dnsHeader (headerField packet 0) (dnsResponseFlags (headerField packet 2)) ancount) :=
      fun ancount hancount =>
        pack_dnsHeader (headerField_lt (by omega)) (dnsResponseFlags_lt _) hancount
    unfold buildDnsAResponse at h
    simp only [hparse] at h
    split at h
    · -- not a question for an address: no record
      refine ⟨q, [], hq, Nat.zero_le 1, by simp, ?_⟩
      unfold buildDnsEmptyResponse at h
      simp only [FirstQuestion.query, hquestion, hpack 0 (by decide), Option.map_some,
        Option.some.injEq] at h
      rw [← h, dnsPacket]
      simp
    · simp only [FirstQuestion.query, hquestion, hpack 1 (by decide), Option.bind_eq_bind,
        Option.bind_some, Option.bind_eq_some_iff, Option.pure_def, Option.some.injEq] at h
      obtain ⟨rdata, -, answer, hanswer, hresponse⟩ := h
      unfold packAnswer at hanswer
      split at hanswer
      · cases hanswer
      have hfits := ByteOrder.fits_of_pack hanswer
      rw [ByteOrder.pack_of_fits _ hfits] at hanswer
      simp only [List.forall_mem_cons] at hfits
      obtain ⟨htype, hclass, httl, hrdlength, -⟩ := hfits
      obtain rfl := Option.some.inj hanswer
      refine ⟨q, [⟨namePointer 12, 1, 1, ttl.toNat, rdata, htype, hclass, httl, hrdlength⟩], hq,
        Nat.le_refl 1, by simp, ?_⟩
      have hpointer : namePointer 12 = [0xC0, 0x0C] := by decide
      rw [← hresponse, dnsPacket]
      simp [DnsRecord.encode, hpointer]

/-- **The name server echoes what it parsed.**  It reads inside the packet and fails without an
exception, it accepts the packets that start with a question, and an answer repeats the question, with
as many records as it counts, and is itself read as the query is. -/
theorem dns_responder_echoes (packet : List UInt8) :
    (∀ read ∈ (parseDnsQuery packet).reads, read.1 ≤ read.2 ∧ read.2 ≤ packet.length) ∧
    (∀ failure, (parseDnsQuery packet).outcome = .error failure →
      failure.parseError ∈ dnsParseErrors) ∧
    ((∃ query, (parseDnsQuery packet).outcome = .ok query) ↔ ∃ q, FirstQuestion packet q) ∧
    ∀ answerIp ttl response, buildDnsAResponse packet answerIp ttl = some (some response) →
      ∃ q answers query reply, FirstQuestion packet q ∧ DnsEcho packet response q answers ∧
        (parseDnsQuery packet).outcome = .ok query ∧ (parseDnsQuery response).outcome = .ok reply ∧
        reply.query = query.query ∧ reply.qtype = query.qtype ∧ reply.qclass = query.qclass := by
  refine ⟨parseDnsQuery_reads packet, fun failure hfailure => parseDnsQuery_error hfailure,
    ⟨?_, ?_⟩, ?_⟩
  · rintro ⟨query, hquery⟩
    exact firstQuestion_of_parse hquery
  · rintro ⟨q, hq⟩
    exact ⟨_, parseDnsQuery_of_firstQuestion hq⟩
  · intro answerIp ttl response hresponse
    obtain ⟨q, answers, hq, hlength, hnames, rfl⟩ := buildDnsAResponse_eq hresponse
    have hcount : answers.length < 256 ^ 2 := Nat.lt_of_le_of_lt hlength (by decide)
    have hreply := firstQuestion_dnsPacket hq hcount
    exact ⟨q, answers, _, _, hq, dnsEcho_dnsPacket hq hcount hnames, parseDnsQuery_of_firstQuestion hq,
      parseDnsQuery_of_firstQuestion hreply, rfl, rfl, rfl⟩

/-- The query for the address of `a.io` with recursion desired, and its answer. -/
theorem dns_responder_echoes_sample :
    ∃ packet response, buildDnsAResponse packet (py "10.10.0.1") 60 = some (some response) ∧
      ∃ q answers, DnsEcho packet response q answers := by
  let packet : List UInt8 :=
    [0x12, 0x34, 1, 0, 0, 1, 0, 0, 0, 0, 0, 0, 1, 97, 2, 105, 111, 0, 0, 1, 0, 1]
  let response : List UInt8 :=
    [0x12, 0x34, 0x81, 0x80, 0, 1, 0, 1, 0, 0, 0, 0, 1, 97, 2, 105, 111, 0, 0, 1, 0, 1, 0xC0, 0x0C, 0,
      1, 0, 1, 0, 0, 0, 60, 0, 4, 10, 10, 0, 1]
  have hresponse : buildDnsAResponse packet (py "10.10.0.1") 60 = some (some response) := by
    decide +kernel
  obtain ⟨q, answers, -, -, -, hecho, -⟩ :=
    (dns_responder_echoes packet).2.2.2 (py "10.10.0.1") 60 response hresponse
  exact ⟨packet, response, hresponse, q, answers, hecho⟩

end TaintForge
