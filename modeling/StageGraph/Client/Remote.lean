/-
# `StageGraph.Client.Remote` — the client of a completer service

Every call becomes one request to the service, and the reply to the request
becomes the answer to the call.  Both directions are functions on data: which
address, which body, and what a status and a body mean.

The service itself is given by its replies, or there is none to be reached.
-/
import StageGraph.Client.Address
import StageGraph.Client.Basic
import StageGraph.Client.Status

namespace StageGraph

/-- How a request is made. -/
inductive Method where
  | get
  | post
deriving DecidableEq, Repr

def Method.name : Method → String
  | get => "GET"
  | post => "POST"

/-- A request to a completer service. -/
structure ServiceRequest where
  method : Method
  /-- The address without its query. -/
  url : String
  /-- The timeout in milliseconds that stands in the query. -/
  timeout : Option Nat
  body : Option Bytes
deriving DecidableEq, Repr

namespace ServiceRequest

/-- The type of a request's body. -/
def contentType (r : ServiceRequest) : Option String := r.body.map fun _ => Datum.jsonType

/-- The address that a request goes to, if its text is one; a query that is there already is
continued. -/
def address? (r : ServiceRequest) : Option Address :=
  (Address.ofText? r.url).map fun a =>
    match r.timeout with
    | none => a
    | some ms => a.withPair "timeout_ms" (toString ms)

end ServiceRequest

/-- What a completer service sends back. -/
structure ServiceReply where
  status : Status
  body : String
deriving DecidableEq, Repr

namespace Remote

open StageGraph.Wire (Codec)

/-- The address of a flow's collection or action. -/
def flowUrl (base : String) (flow : FlowId) (path : String) : String :=
  s!"{base}/v1/flows/{flow}/{path}"

/-- A request that sends a body. -/
def post {α : Type} (url : String) (c : Codec α) (a : α) : ServiceRequest :=
  ⟨.post, url, none, some (c.encode a)⟩

/-- A number of milliseconds as it is sent. -/
def millis (d : Duration) : UInt64 := .ofNat d.wholeMillis

/-- The request of a call. -/
def request (base : String) : Request → ServiceRequest
  | .createFlow function => post s!"{base}/v1/flows" Message.createFlow function
  | .addStage flow r => post (flowUrl base flow "stage") StageRequest.codec r
  | .addCompleted flow o => post (flowUrl base flow "value") Message.addCompleted o
  | .addDelay flow d => post (flowUrl base flow "delay") Message.addDelay (millis d)
  | .awaitStage flow stage timeout =>
    ⟨.get, flowUrl base flow s!"stages/{stage}/await", timeout.map Duration.wholeMillis, none⟩
  | .addHook flow c => post (flowUrl base flow "terminationHook") Message.addHook c
  | .commit flow s => post (flowUrl base flow "commit") Message.commit s

/-- What a reply that is expected to hold a value means. -/
def read {α : Type} (c : Codec α) (reply : ServiceReply) : Except FlowError α :=
  if reply.status.isSuccess then
    (c.decode (Utf8.ofString reply.body)).mapError fun _ => .codec .response
  else .error (.completer (.returned reply.status.render reply.body))

/-- What a reply that only confirms means. -/
def confirm (reply : ServiceReply) : Except FlowError Unit :=
  if reply.status.isSuccess then .ok ()
  else .error (.completer (.returned reply.status.render reply.body))

/-- The answer to a call, by the reply to its request. -/
def answer (reply : ServiceReply) : (r : Request) → r.Answer
  | .createFlow _ => read Message.flowCreated reply
  | .addStage .. => read Message.stageAdded reply
  | .addCompleted .. => read Message.stageAdded reply
  | .addDelay .. => read Message.stageAdded reply
  | .awaitStage _ stage _ =>
    if reply.status = .requestTimeout then .error (.timeout stage)
    else read Message.stageAwaited reply
  | .addHook .. => confirm reply
  | .commit .. => confirm reply

/-- The answer to a call that failed before there was a reply. -/
def failed (e : FlowError) : (r : Request) → r.Answer
  | .createFlow _ => .error e
  | .addStage .. => .error e
  | .addCompleted .. => .error e
  | .addDelay .. => .error e
  | .awaitStage .. => .error e
  | .addHook .. => .error e
  | .commit .. => .error e

/-- A completer service. -/
structure Service where
  /-- The replies it is going to send; without any there is nothing to be reached. -/
  replies : Option (List ServiceReply)
  /-- The requests it has got. -/
  requests : List ServiceRequest
deriving Repr

/-- What a service sends that has no reply left. -/
def nothingLeft : ServiceReply := ⟨.internalError, "no response scripted"⟩

/-- Makes a call by a request to the service. -/
def call (base : String) (r : Request) (s : Service) : r.Answer × Service :=
  let sent := request base r
  match sent.address?, s.replies with
  | none, _ => (failed (.completer (.badAddress sent.url)) r, s)
  | some address, none => (failed (.completer (.unreachable sent.url address.render)) r, s)
  | some _, some replies =>
    (answer (replies.headD nothingLeft) r, ⟨some replies.tail, s.requests ++ [sent]⟩)

/-- The client of the service at an address. -/
def client (base : String) : Client Service := ⟨call base⟩

end Remote

end StageGraph
