import Mathlib.Data.List.Basic

/-! # The STUN responder

`serverSTUNListener` reads datagrams for ever from one UDP socket and answers every binding
request with the sender's own address and port. One turn of its loop is `handle`, and a run over
a sequence of read outcomes is a left fold of it. The sender is what `ReadFromUDP` reports: a
4-byte IP, or a 16-byte one. On a dual-stack socket an IPv4 peer arrives in the 16-byte
IPv4-mapped form, which `To4` counts as IPv4 while `netip.AddrFromSlice` keeps it an IPv6
address.
-/

namespace MirageNavi.Stun

set_option autoImplicit false

/-- The sender of a datagram, as `ReadFromUDP` reports it. -/
structure UDPAddr where
  ip : List UInt8
  port : UInt16
  ip_length : ip.length = 4 ∨ ip.length = 16
  deriving DecidableEq, Repr

/-- `net.IP.To4`: the 4-byte form of an IPv4 or IPv4-mapped address, `nil` otherwise. -/
def to4 (ip : List UInt8) : Option (List UInt8) :=
  if ip.length = 4 then some ip
  else if ip.length = 16 ∧ ip.take 10 = List.replicate 10 0 ∧ ip.get? 10 = some 0xff ∧
      ip.get? 11 = some 0xff then some (ip.drop 12)
  else none

inductive Family
  | ipv4
  | ipv6
  deriving DecidableEq, Repr

structure Addr where
  family : Family
  bytes : List UInt8
  deriving DecidableEq, Repr

/-- `netip.AddrFromSlice` on the 4- and 16-byte slices `ReadFromUDP` reports: the slice's length
decides the version, so an IPv4-mapped slice stays an IPv6 address. -/
def addrFromSlice (ip : List UInt8) : Addr :=
  if ip.length = 4 then ⟨.ipv4, ip⟩ else ⟨.ipv6, ip⟩

/-- Modelled from the spec: `stun.Response(txid, addrPort)` (package stun, not under src) is the
binding response carrying the transaction id and the reflected address and port, in the address
family implied by the IP version of the address it is given. -/
structure Response where
  txid : List UInt8
  family : Family
  ip : List UInt8
  port : UInt16
  deriving DecidableEq, Repr

def response (txid : List UInt8) (addr : Addr) (port : UInt16) : Response :=
  ⟨txid, addr.family, addr.bytes, port⟩

/-- The two checks of package stun the loop calls, `stun.Is` and `stun.ParseBindingRequest`
(the package is not under src); every result below holds for any pair. -/
structure Parser where
  is : List UInt8 → Bool
  parseBindingRequest : List UInt8 → Option (List UInt8)

/-- One outcome of `pc.ReadFromUDP`, with the outcome of the `WriteTo` a reply to it would make. -/
inductive Read
  | error
  | datagram (pkt : List UInt8) (ua : UDPAddr) (writeOk : Bool)
  deriving DecidableEq, Repr

/-- The `stun` expvar counters: `stunDisposition` and `stunAddrFamily`. -/
structure Counters where
  readError : Nat
  notSTUN : Nat
  writeError : Nat
  success : Nat
  ipv4 : Nat
  ipv6 : Nat
  deriving DecidableEq, Repr

/-- The counters and every `pc.WriteTo(res, ua)` made so far, in order. -/
structure Responder where
  counters : Counters
  sent : List (UDPAddr × Response)
  deriving DecidableEq, Repr

def Responder.init : Responder := ⟨⟨0, 0, 0, 0, 0, 0⟩, []⟩

def Responder.countNotSTUN (r : Responder) : Responder :=
  { r with counters := { r.counters with notSTUN := r.counters.notSTUN + 1 } }

/-- One turn of the loop of `serverSTUNListener`. The context is `context.Background()`, so a read
error is always counted and retried after the one-second sleep. -/
def handle (p : Parser) (r : Responder) : Read → Responder
  | .error => { r with counters := { r.counters with readError := r.counters.readError + 1 } }
  | .datagram pkt ua writeOk =>
    if !p.is pkt then r.countNotSTUN
    else match p.parseBindingRequest pkt with
      | none => r.countNotSTUN
      | some txid =>
        let c := if (to4 ua.ip).isSome then { r.counters with ipv4 := r.counters.ipv4 + 1 }
          else { r.counters with ipv6 := r.counters.ipv6 + 1 }
        let res := response txid (addrFromSlice ua.ip) ua.port
        let c := if writeOk then { c with success := c.success + 1 }
          else { c with writeError := c.writeError + 1 }
        ⟨c, r.sent ++ [(ua, res)]⟩

def serverSTUNListener (p : Parser) (reads : List Read) : Responder :=
  reads.foldl (handle p) Responder.init

/-- The sender and transaction id of a read that `stun.Is` and `ParseBindingRequest` accept. -/
def accepted (p : Parser) : Read → Option (UDPAddr × List UInt8)
  | .error => none
  | .datagram pkt ua _ => if p.is pkt then (p.parseBindingRequest pkt).map (ua, ·) else none

def Read.isError : Read → Bool
  | .error => true
  | .datagram .. => false

def rejected (p : Parser) (rd : Read) : Bool := !rd.isError && (accepted p rd).isNone

def reply (p : Parser) (rd : Read) : Option (UDPAddr × Response) :=
  (accepted p rd).map fun (ua, txid) => (ua, response txid (addrFromSlice ua.ip) ua.port)

theorem filterMap_cons_toList {α β : Type} (f : α → Option β) (a : α) (l : List α) :
    (a :: l).filterMap f = (f a).toList ++ l.filterMap f := by
  cases h : f a <;> simp [List.filterMap_cons, h]

theorem handle_spec (p : Parser) (r : Responder) (rd : Read) :
    let r' := handle p r rd
    r'.sent = r.sent ++ (reply p rd).toList ∧
    r'.counters.readError = r.counters.readError + (if rd.isError then 1 else 0) ∧
    r'.counters.notSTUN = r.counters.notSTUN + (if rejected p rd then 1 else 0) ∧
    r'.counters.ipv4 = r.counters.ipv4 + (reply p rd).toList.countP (fun x => (to4 x.1.ip).isSome) ∧
    r'.counters.ipv4 + r'.counters.ipv6 = r.counters.ipv4 + r.counters.ipv6 + (reply p rd).toList.length ∧
    r'.counters.success + r'.counters.writeError =
      r.counters.success + r.counters.writeError + (reply p rd).toList.length := by
  cases rd with
  | error => simp [handle, reply, accepted, rejected, Read.isError]
  | datagram pkt ua writeOk =>
    by_cases hIs : p.is pkt = true
    · cases hParse : p.parseBindingRequest pkt with
      | none =>
        simp [handle, reply, accepted, rejected, Read.isError, Responder.countNotSTUN, hIs, hParse]
      | some txid =>
        cases h4 : (to4 ua.ip).isSome <;> cases writeOk <;>
          simp [handle, reply, accepted, rejected, Read.isError, hIs, hParse, h4] <;> omega
    · simp [handle, reply, accepted, rejected, Read.isError, Responder.countNotSTUN, hIs]

theorem foldl_handle (p : Parser) (reads : List Read) (r : Responder) :
    let r' := reads.foldl (handle p) r
    r'.sent = r.sent ++ reads.filterMap (reply p) ∧
    r'.counters.readError = r.counters.readError + reads.countP Read.isError ∧
    r'.counters.notSTUN = r.counters.notSTUN + reads.countP (rejected p) ∧
    r'.counters.ipv4 = r.counters.ipv4 +
      (reads.filterMap (reply p)).countP (fun x => (to4 x.1.ip).isSome) ∧
    r'.counters.ipv4 + r'.counters.ipv6 = r.counters.ipv4 + r.counters.ipv6 +
      (reads.filterMap (reply p)).length ∧
    r'.counters.success + r'.counters.writeError = r.counters.success + r.counters.writeError +
      (reads.filterMap (reply p)).length := by
  induction reads generalizing r with
  | nil => simp
  | cons rd reads ih =>
    obtain ⟨hSent, hRead, hNot, h4, hFam, hWrite⟩ := handle_spec p r rd
    obtain ⟨ihSent, ihRead, ihNot, ih4, ihFam, ihWrite⟩ := ih (handle p r rd)
    simp only [List.foldl_cons, filterMap_cons_toList, List.countP_cons, List.countP_append,
      List.length_append]
    refine ⟨by rw [ihSent, hSent, List.append_assoc], ?_, ?_, by omega, by omega, by omega⟩
    · rw [ihRead, hRead]; split <;> omega
    · rw [ihNot, hNot]; split <;> omega

/-- The reply written for an accepted datagram: its transaction id and the sender's own IP bytes
and port, in the family fixed by the length of the IP slice. -/
def reflect (ua : UDPAddr) (txid : List UInt8) : Response :=
  ⟨txid, if ua.ip.length = 4 then .ipv4 else .ipv6, ua.ip, ua.port⟩

theorem reply_eq (p : Parser) (rd : Read) :
    reply p rd = (accepted p rd).map fun x => (x.1, reflect x.1 x.2) := by
  simp only [reply, response, addrFromSlice, reflect]
  congr 1
  funext x
  split <;> rfl

theorem serverSTUNListener_replies (p : Parser) (reads : List Read) :
    let l := serverSTUNListener p reads
    let acc := reads.filterMap (accepted p)
    l.sent = acc.map (fun x => (x.1, reflect x.1 x.2)) ∧
    l.counters.readError = reads.countP Read.isError ∧
    l.counters.notSTUN = reads.countP (rejected p) ∧
    l.counters.ipv4 = acc.countP (fun x => (to4 x.1.ip).isSome) ∧
    l.counters.ipv4 + l.counters.ipv6 = acc.length ∧
    l.counters.success + l.counters.writeError = acc.length := by
  have hReplies : reads.filterMap (reply p) =
      (reads.filterMap (accepted p)).map (fun x => (x.1, reflect x.1 x.2)) := by
    rw [List.map_filterMap]
    exact congrArg (List.filterMap · reads) (funext (reply_eq p))
  obtain ⟨hSent, hRead, hNot, h4, hFam, hWrite⟩ := foldl_handle p reads Responder.init
  simp only [Responder.init, List.nil_append, Nat.zero_add, hReplies, List.countP_map,
    List.length_map] at hSent hRead hNot h4 hFam hWrite
  exact ⟨hSent, hRead, hNot, h4, hFam, hWrite⟩

def magicCookie : List UInt8 := [0x21, 0x12, 0xa4, 0x42]

/-- Modelled from the spec: a probe is a packet of at least the 20-byte header whose bytes 4 to 7
are the protocol's magic cookie (`stun.Is`), and a binding request, of message type 0x0001,
carries its transaction id in bytes 8 to 19 (`stun.ParseBindingRequest`). -/
def specParser : Parser where
  is pkt := decide (20 ≤ pkt.length) && (pkt.drop 4).take 4 == magicCookie
  parseBindingRequest pkt := if pkt.take 2 == [0x00, 0x01] then some ((pkt.drop 8).take 12) else none

def bindingRequest : List UInt8 :=
  [0x00, 0x01, 0x00, 0x14, 0x21, 0x12, 0xa4, 0x42, 0x01, 0x02, 0x03, 0x04, 0x05, 0x06, 0x07, 0x08,
    0x09, 0x0a, 0x0b, 0x0c, 0x80, 0x22, 0x00, 0x08, 0x74, 0x61, 0x69, 0x6c, 0x6e, 0x6f, 0x64, 0x65,
    0x80, 0x28, 0x00, 0x04, 0xb3, 0x2c, 0x37, 0x0f]

def mappedPeer : UDPAddr :=
  ⟨[0, 0, 0, 0, 0, 0, 0, 0, 0, 0, 0xff, 0xff, 192, 0, 2, 1], 41641, by decide⟩

theorem mapped_peer_counted_ipv4_answered_ipv6 :
    let l := serverSTUNListener specParser [.datagram bindingRequest mappedPeer true]
    l.counters.ipv4 = 1 ∧ l.counters.ipv6 = 0 ∧ l.sent.map (·.2.family) = [.ipv6] := by
  decide

end MirageNavi.Stun
