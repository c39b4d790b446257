import Trafficmon.Dpi.Inspector

/-!
# The inspectors a capturer runs with (`dpi/tls.go`, `dpi/quic.go`, `dpi/dns.go`, `dpi/dns_query.go`)

The parsers are other packages' (`tlsx`, `quicsni`, gopacket's `layers`) and may panic on what the
remote end sends; `Parsers` is what they return, and a panic is recovered as an empty result.
-/

namespace Trafficmon

/-- What a parser does with some bytes. -/
inductive Parse (α : Type)
  | ok (a : α)
  | error
  | panic
deriving DecidableEq, Repr

def Parse.toOption {α : Type} : Parse α → Option α
  | .ok a => some a
  | .error | .panic => none

structure DnsQuestion where
  name : String
  type : UInt16
deriving DecidableEq, Repr

structure DnsRecord where
  name : String
  type : UInt16
  ttl : UInt32
  /-- `none` is the nil slice. -/
  ip : Option (List UInt8)
deriving DecidableEq, Repr

/-- `layers.DNS`, as far as it is read. -/
structure DnsMessage where
  qr : Bool
  responseCode : UInt8
  questions : List DnsQuestion
  answers : List DnsRecord
deriving DecidableEq, Repr

structure Parsers where
  /-- The SNI `tlsx.ClientHelloBasic.Unmarshal` finds. -/
  unmarshal : List UInt8 → Parse String
  /-- The server name `quicsni.ReadClientHello` finds. -/
  readClientHello : List UInt8 → Parse String
  decodeFromBytes : List UInt8 → Parse DnsMessage
  dnsTypeString : UInt16 → String
  dnsResponseCodeString : UInt8 → String

/-! ### ClientHellos -/

def looksLikeTLSClientHello (b : List UInt8) : Bool :=
  6 ≤ b.length ∧ b[0]? = some 0x16 ∧ b[1]? = some 0x03 ∧ b[5]? = some 0x01

def tlsSNIInspector (P : Parsers) : Inspector where
  name := "tls-sni"
  candidate p := p.isTCP && p.outbound && looksLikeTLSClientHello p.payload
  inspect payload := (P.unmarshal payload).toOption.filter (· ≠ "")

def minInitialDatagramLen : Int := 1200

def looksLikeQUICInitial (b : List UInt8) : Bool :=
  5 ≤ b.length ∧ b[0]?.map (· &&& 0xF0) = some 0xC0 ∧
    (b[1]? ≠ some 0 ∨ b[2]? ≠ some 0 ∨ b[3]? ≠ some 0 ∨ b[4]? ≠ some 0)

def quicSNIInspector (P : Parsers) : Inspector where
  name := "quic-sni"
  candidate p := ! p.isTCP && p.outbound && minInitialDatagramLen ≤ p.datagramLen && looksLikeQUICInitial p.payload
  inspect payload := (P.readClientHello payload).toOption.filter (· ≠ "")

def defaultInspectors (P : Parsers) : List Inspector := [tlsSNIInspector P, quicSNIInspector P]

/-! ### DNS -/

def dnsPort : UInt16 := 53

def dnsTypeA : UInt16 := 1

def dnsTypeAAAA : UInt16 := 28

def dnsResponseCodeNoErr : UInt8 := 0

/-- `net.IP.String`, of what an A or AAAA record holds. -/
def ipString (ip : List UInt8) : String :=
  match ip with
  | [] => "<nil>"
  | _ =>
    match Addr.ofSlice ip with
    | some a => a.unmap.string
    | none => "?" ++ String.ofList (ip.flatMap fun b => [(b.toNat / 16).digitChar, (b.toNat % 16).digitChar])

/-- The address a record names, if it is one of the records that name one. -/
def DnsRecord.address (a : DnsRecord) : Option (List UInt8) :=
  if a.type ≠ dnsTypeA ∧ a.type ≠ dnsTypeAAAA then none else a.ip

namespace DnsMessage
variable (P : Parsers) (msg : DnsMessage)

def hostnames : List HostnameFinding :=
  msg.answers.filterMap fun a => a.address.map fun ip => ⟨ipString ip, a.name⟩

def answerFindings (serverAddr : String) (ts : Int) : List DNSAnswerFinding :=
  msg.answers.filterMap fun a =>
    a.address.map fun ip => ⟨a.name, P.dnsTypeString a.type, ipString ip, a.ttl, serverAddr, ts⟩

def errorFindings (serverAddr : String) (ts : Int) : List DNSErrorFinding :=
  msg.questions.map fun q =>
    ⟨q.name, P.dnsTypeString q.type, P.dnsResponseCodeString msg.responseCode, serverAddr, ts⟩

def queryFindings (clientAddr serverAddr : String) (ts : Int) : List QueryFinding :=
  msg.questions.map fun q => ⟨q.name, P.dnsTypeString q.type, clientAddr, serverAddr, ts⟩

end DnsMessage

/-- Each of the inspectors' methods decodes the message anew, and returns early unless it is of its kind. -/
def Parsers.inspectMessage {α : Type} (P : Parsers) (wanted : DnsMessage → Bool) (findings : DnsMessage → List α)
    (payload : List UInt8) : List α :=
  match (P.decodeFromBytes payload).toOption with
  | none => []
  | some msg => if ¬ wanted msg then [] else findings msg

def dnsAnswerInspector (P : Parsers) : PassiveInspector where
  name := "dns-answer"
  candidate p := p.srcPort = dnsPort
  inspect := P.inspectMessage (fun msg => msg.qr) DnsMessage.hostnames
  inspectAnswer := some fun payload serverAddr ts =>
    P.inspectMessage (fun msg => msg.qr && msg.responseCode = dnsResponseCodeNoErr)
      (fun msg => msg.answerFindings P serverAddr ts) payload
  inspectError := some fun payload serverAddr ts =>
    P.inspectMessage (fun msg => msg.qr && msg.responseCode ≠ dnsResponseCodeNoErr)
      (fun msg => msg.errorFindings P serverAddr ts) payload

def dnsQueryInspector (P : Parsers) : PassiveInspector where
  name := "dns-query"
  candidate p := p.dstPort = dnsPort
  inspect _ := []
  inspectQuery := some fun payload clientAddr serverAddr ts =>
    P.inspectMessage (fun msg => ! msg.qr) (fun msg => msg.queryFindings P clientAddr serverAddr ts) payload

def defaultPassiveInspectors (P : Parsers) : List PassiveInspector := [dnsAnswerInspector P, dnsQueryInspector P]

/-! ### The ClientHello inspectors keep out of each other's way -/

/-- No packet is a candidate of two of the inspectors. -/
def Inspectors.Disjoint (insps : List Inspector) : Prop :=
  insps.Pairwise fun a b => ∀ p, ¬ (a.candidate p = true ∧ b.candidate p = true)

theorem defaultInspectors_disjoint (P : Parsers) : Inspectors.Disjoint (defaultInspectors P) := by
  refine List.pairwise_pair.2 ?_
  rintro p ⟨htls, hquic⟩
  simp only [tlsSNIInspector, quicSNIInspector, Bool.and_eq_true, Bool.not_eq_true'] at htls hquic
  rw [htls.1.1] at hquic
  cases hquic.1.1.1

end Trafficmon
