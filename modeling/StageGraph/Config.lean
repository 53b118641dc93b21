/-
# `StageGraph.Config` — settings of an invocation and of a remote client

Timeouts are kept as seconds in floating point, the form in which they are
written.  A number of seconds that is no duration counts as the default.
-/
import StageGraph.Wire.Record
import StageGraph.Time.Duration

namespace StageGraph

open StageGraph.Wire (Codec Fields)

/-- Where the completer service is, how long to wait for it and for hooks, and which function new
flows belong to. -/
structure Config where
  completerUrl : String
  requestTimeoutSeconds : Binary64
  hookTimeoutSeconds : Binary64
  functionId : String
deriving DecidableEq, Repr

namespace Config

def defaultUrl : String := "http://completer-svc:8081"

def defaultRequestTimeout : Duration := .ofSeconds 30

def defaultHookTimeout : Duration := .ofSeconds 10

def defaultFunctionId : String := "fnflow"

/-- The settings when nothing is said. -/
def default : Config :=
  ⟨defaultUrl, defaultRequestTimeout.toSeconds, defaultHookTimeout.toSeconds, defaultFunctionId⟩

/-- The default settings, overlaid with a URL and a function id; an empty text counts as none. -/
def overlaid (url function : Option String) : Config :=
  let given (s : Option String) : Option String := s.filter fun t => !t.isEmpty
  { default with
    completerUrl := (given url).getD defaultUrl
    functionId := (given function).getD defaultFunctionId }

def fields : Fields Config :=
  ((((Fields.none Config.mk).optional "completer_base_url" Codec.string defaultUrl).optional
    "request_timeout_seconds" Codec.float defaultRequestTimeout.toSeconds).optional
    "hook_timeout_seconds" Codec.float defaultHookTimeout.toSeconds).optional
    "function_id" Codec.string defaultFunctionId

def codec : Codec Config :=
  .record "FlowConfig" fields fun c =>
    [("completer_base_url", .string c.completerUrl),
      ("request_timeout_seconds", Codec.float.toValue c.requestTimeoutSeconds),
      ("hook_timeout_seconds", Codec.float.toValue c.hookTimeoutSeconds),
      ("function_id", .string c.functionId)]

/-- The time allowed to a request. -/
def requestTimeout (c : Config) : Duration :=
  (Duration.ofSeconds? c.requestTimeoutSeconds).getD defaultRequestTimeout

/-- The time allowed to a hook. -/
def hookTimeout (c : Config) : Duration :=
  (Duration.ofSeconds? c.hookTimeoutSeconds).getD defaultHookTimeout

/-- The address that requests are built on: the URL without slashes at its end. -/
def baseUrl (c : Config) : String :=
  String.ofList ((c.completerUrl.toList.reverse.dropWhile (· == '/')).reverse)

/-- A change of one setting. -/
inductive Change where
  | url (text : String)
  | function (text : String)
  | requestTimeout (d : Duration)
  | hookTimeout (d : Duration)
deriving DecidableEq, Repr

def apply (c : Config) : Change → Config
  | .url t => { c with completerUrl := t }
  | .function t => { c with functionId := t }
  | .requestTimeout d => { c with requestTimeoutSeconds := d.toSeconds }
  | .hookTimeout d => { c with hookTimeoutSeconds := d.toSeconds }

end Config

end StageGraph
