import TaintForge.Lib.ByteScan
import TaintForge.Lib.PyText
import TaintForge.Lib.StructPack

/-!
# Name queries and their answers

`transparent_logger.py`, the part that reads a query for a name out of a packet and builds the packet
that answers it.

* `parseDnsQuery`: `parse_dns_query`, with what it reads of the packet.
* `buildDnsEmptyResponse`, `buildDnsAResponse`: the two answers.
-/

namespace TaintForge

open StructPack (ByteOrder)

/-- `DNS_QTYPE_NAMES` -/
def dnsQtypeNames : List (ℕ × PyStr) :=
  [(1, py "A"), (2, py "NS"), (5, py "CNAME"), (12, py "PTR"), (15, py "MX"), (16, py "TXT"),
    (28, py "AAAA")]

/-- `DNS_QTYPE_NAMES.get(qtype, str(qtype))` -/
def dnsQtypeName (qtype : ℕ) : PyStr := (dnsQtypeNames.lookup qtype).getD (py (toString qtype))

/-- What `parse_dns_query` returns of a packet that it does not understand. -/
structure DnsFailure where
  parseError : PyStr
  transactionId : Option ℕ
  deriving DecidableEq, Repr

/-- What `parse_dns_query` returns of a query. -/
structure DnsQuery where
  transactionId : ℕ
  flags : ℕ
  qdcount : ℕ
  query : PyStr
  qtype : ℕ
  qtypeName : PyStr
  qclass : ℕ
  questionEndOffset : ℕ
  deriving DecidableEq, Repr

/-- `data.decode("ascii", errors="replace")` -/
def decodeAscii (data : List UInt8) : PyStr :=
  data.map fun byte => if byte < 0x80 then byte.toNat else 0xFFFD

/-- The loop of `parse_dns_query` over the labels of a name: where the name ends, and its labels. -/
def readLabels (packet : List UInt8) (offset : ℕ) (labels : List PyStr) :
    Scan PyStr (ℕ × List PyStr) :=
  if packet.length ≤ offset then ⟨[], .error (py "qname_out_of_bounds")⟩
  else
    match packet[offset]? with
    | none => ⟨[(offset, offset + 1)], .error (py "unexpected:IndexError:index out of range")⟩
    | some length =>
      let start := offset + 1
      let stop := start + length.toNat
      if length = 0 then ⟨[(offset, start)], .ok (start, labels)⟩
      else if length &&& 0xC0 ≠ 0 then
        ⟨[(offset, start)], .error (py "compressed_qname_not_supported")⟩
      else if packet.length < stop then ⟨[(offset, start)], .error (py "label_out_of_bounds")⟩
      else
        let rest := readLabels packet stop (labels ++ [decodeAscii (byteSlice packet start stop)])
        ⟨(offset, start) :: (start, stop) :: rest.reads, rest.outcome⟩
termination_by packet.length - offset

/-- The end of `parse_dns_query`: the type and the class after the name. -/
def readQuestionTail (packet : List UInt8) (transactionId flags qdcount offset : ℕ)
    (labels : List PyStr) : Scan PyStr DnsQuery :=
  if packet.length < offset + 4 then ⟨[], .error (py "question_tail_out_of_bounds")⟩
  else
    match ByteOrder.big.unpack [2, 2] (byteSlice packet offset (offset + 4)) with
    | some [qtype, qclass] =>
      ⟨[(offset, offset + 4)], .ok
        { transactionId := transactionId
          flags := flags
          qdcount := qdcount
          query := (py ".").intercalate labels
          qtype := qtype
          qtypeName := dnsQtypeName qtype
          qclass := qclass
          questionEndOffset := offset + 4 }⟩
    | _ =>
      ⟨[(offset, offset + 4)], .error (py "unexpected:error:unpack requires a buffer of 4 bytes")⟩

/-- The first question of a packet, after the header. -/
def readQuestion (packet : List UInt8) (transactionId flags qdcount : ℕ) :
    Scan PyStr DnsQuery :=
  let name := readLabels packet 12 []
  match name.outcome with
  | .error parseError => ⟨name.reads, .error parseError⟩
  | .ok (offset, labels) =>
    let tail := readQuestionTail packet transactionId flags qdcount offset labels
    ⟨name.reads ++ tail.reads, tail.outcome⟩

/-- `parse_dns_query` -/
def parseDnsQuery (packet : List UInt8) : Scan DnsFailure DnsQuery :=
  if packet.length < 12 then ⟨[], .error ⟨py "packet_too_short", none⟩⟩
  else
    match ByteOrder.big.unpack [2, 2, 2, 2, 2, 2] (byteSlice packet 0 12) with
    | some [transactionId, flags, qdcount, _, _, _] =>
      if qdcount < 1 then ⟨[(0, 12)], .error ⟨py "no_questions", some transactionId⟩⟩
      else
        let question := readQuestion packet transactionId flags qdcount
        ⟨(0, 12) :: question.reads,
          question.outcome.mapError fun parseError => ⟨parseError, some transactionId⟩⟩
    | _ =>
      ⟨[(0, 12)], .error ⟨py "header_unpack_failed:unpack requires a buffer of 12 bytes", none⟩⟩

/-- The flags of an answer: it is one, recursion is available, and recursion is desired where the query
says so. -/
def dnsResponseFlags (queryFlags : ℕ) : ℕ := 0x8000 ||| 0x0080 ||| (queryFlags &&& 0x0100)

/-- `build_dns_empty_response`, of what `parse_dns_query` returned: an exception, nothing, or a
packet. -/
def buildDnsEmptyResponse (queryPacket : List UInt8) (info : Except DnsFailure DnsQuery) :
    Option (Option (List UInt8)) :=
  match info with
  -- the end of the question is missing
  | .error _ => some none
  | .ok query =>
    let question := byteSlice queryPacket 12 query.questionEndOffset
    let header := ByteOrder.big.pack
      [(2, query.transactionId), (2, dnsResponseFlags query.flags), (2, 1), (2, 0), (2, 0), (2, 0)]
    header.map fun header => some (header ++ question)

/-- `bytes(int(part) for part in answer_ip.split("."))`, where it raises nothing. -/
def answerRdata (answerIp : PyStr) : Option (List UInt8) :=
  (answerIp.splitOn 46).mapM fun part =>
    (pyInt part).bind fun n => if 0 ≤ n ∧ n < 256 then some (UInt8.ofNat n.toNat) else none

/-- `struct.pack("!HHIH", answer_type, answer_class, ttl, len(answer_rdata))`, where it raises
nothing. -/
def packAnswer (ttl : ℤ) (rdlength : ℕ) : Option (List UInt8) :=
  if ttl < 0 then none else ByteOrder.big.pack [(2, 1), (2, 1), (4, ttl.toNat), (2, rdlength)]

/-- `build_dns_a_response`: an exception, nothing, or the packet that is sent back. -/
def buildDnsAResponse (queryPacket : List UInt8) (answerIp : PyStr) (ttl : ℤ) :
    Option (Option (List UInt8)) :=
  let info := (parseDnsQuery queryPacket).outcome
  match info with
  | .error _ => some none
  | .ok query =>
    if query.qtype ≠ 1 ∨ query.qclass ≠ 1 then buildDnsEmptyResponse queryPacket info
    else do
      let question := byteSlice queryPacket 12 query.questionEndOffset
      let header ← ByteOrder.big.pack
        [(2, query.transactionId), (2, dnsResponseFlags query.flags), (2, 1), (2, 1), (2, 0), (2, 0)]
      let rdata ← answerRdata answerIp
      let answer ← packAnswer ttl rdata.length
      return some (header ++ question ++ ([0xC0, 0x0C] ++ answer ++ rdata))

end TaintForge
