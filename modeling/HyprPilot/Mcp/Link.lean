import HyprPilot.Base.Lines
import HyprPilot.Base.Pool
import HyprPilot.Mcp.Server

/-!
# The connection to the daemon

The server's requests over a connection that it opens when it first needs one: a stream of bytes
each way, cut into lines. The daemon reads a line, answers it with a line and reads the next, until
the connection ends, which it may do at any time; a daemon that was started again is reached over
new connections. Every byte carries the number of the request that it was written for.
-/

namespace HyprPilot
open Interact

namespace Mcp.Link

def newline : UInt8 := 10

def isNewline (b : UInt8) : Bool := b == newline

/-- The envelopes as text, and what each side makes of a line of text. -/
structure Codec where
  request : Nat → Request → List UInt8
  response : Nat → Response → List UInt8
  parseRequest : List UInt8 → Except String (Nat × Request)
  parseResponse : List UInt8 → Except ClientError (Nat × Response)

namespace Codec

variable (codec : Codec)

def requestLine (id : Nat) (request : Request) : List UInt8 := codec.request id request ++ [newline]

def responseLine (id : Nat) (response : Response) : List UInt8 := codec.response id response ++ [newline]

/-- Compact JSON has no line breaks, and a response that was cut off is not JSON unless only its line
break is missing. -/
structure Compact : Prop where
  request : ∀ id request, newline ∉ codec.request id request
  response : ∀ id response, newline ∉ codec.response id response
  cutOff : ∀ id response part x, part <+: codec.responseLine id response →
    codec.parseResponse part = .ok x → codec.parseResponse (codec.responseLine id response) = .ok x

/-- The line with which the daemon answers a line. -/
def Answers (line reply : List UInt8) : Prop :=
  match codec.parseRequest line with
  | .ok (id, _) => ∃ response, reply = codec.responseLine id response
  | .error message => reply = codec.responseLine 0 (.err "parse_error" message)

end Codec

/-! ### The client -/

inductive Cmd where
  /-- A call begins and ends; these two are for the record. -/
  | called (request : Request)
  | returned (result : Except ClientError Reply)
  | connect
  | write (conn : Nat) (bytes : List UInt8)
  | readLine (conn : Nat)
  | close (conn : Nat)
  | inside (c : Mcp.Cmd)

@[reducible] def Ans : Cmd → Type
  | .called _ | .returned _ | .close _ => Unit
  | .connect => Except String Nat
  | .write _ _ => Except String Unit
  | .readLine _ => Except String (List UInt8)
  | .inside c => Mcp.Ans c

abbrev Call (α : Type) := Prog Cmd Ans α

structure DaemonClient where
  conn : Nat
  nextId : Nat

section Client

variable (codec : Codec) (path : String)

def DaemonClient.connect : Call (Except ClientError DaemonClient) := do
  match ← (.call Cmd.connect : Call (Except String Nat)) with
  | .ok conn => return .ok ⟨conn, 1⟩
  | .error e => return .error (.connect path e)

def received (id : Nat) (line : List UInt8) : Except ClientError Reply :=
  if line = [] then .error .closed
  else
    match codec.parseResponse line with
    | .error e => .error e
    | .ok (got, response) =>
      if got ≠ id then .error (.idMismatch id got)
      else
        match response with
        | .ok result => .ok result
        | .err code message => .error (.rpc code message)

def DaemonClient.callRaw (d : DaemonClient) (request : Request) :
    Call (Except ClientError Reply × DaemonClient) := do
  let id := d.nextId
  -- `fetch_add` wraps.
  let d := { d with nextId := (id + 1) % 2 ^ 64 }
  match ← (.call (Cmd.write d.conn (codec.requestLine id request)) : Call (Except String Unit)) with
  | .error e => return (.error (.io e), d)
  | .ok () =>
    match ← (.call (Cmd.readLine d.conn) : Call (Except String (List UInt8))) with
    | .error e => return (.error (.io e), d)
    | .ok line => return (received codec id line, d)

def daemon : Option DaemonClient → Call (Except ClientError DaemonClient)
  | some d => return .ok d
  | none => DaemonClient.connect path

def callDaemon (slot : Option DaemonClient) (request : Request) :
    Call (Except ClientError Reply × Option DaemonClient) := do
  let () ← (.call (Cmd.called request) : Call Unit)
  match ← daemon path slot with
  | .error e =>
    let () ← (.call (Cmd.returned (.error e)) : Call Unit)
    return (.error e, none)
  | .ok d =>
    let (result, d) ← d.callRaw codec request
    let () ← (.call (Cmd.returned result) : Call Unit)
    return (result, some d)

/-- `self.daemon = None` closes the connection. -/
def dropDaemon : Option DaemonClient → Call Unit
  | some d => .call (Cmd.close d.conn)
  | none => return ()

/-- The server's programs over the connection. -/
def linked {α : Type} : Session α → Option DaemonClient → Call (α × Option DaemonClient)
  | .ret a, slot => .ret (a, slot)
  | .ask (.daemon request) k, slot =>
    callDaemon codec path slot request >>= fun answer => linked (k answer.1) answer.2
  | .ask .dropDaemon k, slot => dropDaemon slot >>= fun _ => linked (k ()) none
  | .ask c k, slot => .ask (.inside c) fun x => linked (k x) slot

end Client

/-! ### The connection -/

/-- Where the daemon's loop over one connection is. -/
inductive Loop where
  | waiting
  | answering (line : List UInt8)
  | gone

structure Wire where
  /-- Written by the server and not yet read, each byte with the number of its request. -/
  up : List (Nat × UInt8)
  /-- Written by the daemon and not yet read. -/
  down : List UInt8
  loop : Loop
  closed : Bool

def Wire.fresh : Wire := ⟨[], [], .waiting, false⟩

def tagged (number : Nat) (bytes : List UInt8) : List (Nat × UInt8) := bytes.map fun b => (number, b)

def numberOf (line : List (Nat × UInt8)) : Nat := (line.head?.map Prod.fst).getD 0

def endsLine (b : Nat × UInt8) : Bool := isNewline b.2

/-- A line that the daemon read and its answer. -/
structure Served where
  number : Nat
  line : List UInt8
  reply : List UInt8

/-- What the daemon has still to write. -/
def Loop.rest : Loop → List UInt8
  | .answering reply => reply
  | _ => []

def Served.of (line : List (Nat × UInt8)) (reply : List UInt8) : Served :=
  ⟨numberOf line, line.map Prod.snd, reply⟩

/-- The daemon's loop, with the lines that it serves. -/
inductive Wire.Moves (codec : Codec) (w : Wire) : Wire → List Served → Prop where
  | reads (line rest : List (Nat × UInt8)) (reply : List UInt8) : w.loop = .waiting →
      Lines.cut endsLine w.up = some (line, rest) → codec.Answers (line.map Prod.snd) reply →
      Moves codec w { w with up := rest, loop := .answering reply } [.of line reply]
  /-- The last line before the end of the stream may lack its line break. -/
  | readsLast (reply : List UInt8) : w.loop = .waiting → w.closed = true → w.up ≠ [] →
      Lines.cut endsLine w.up = none → codec.Answers (w.up.map Prod.snd) reply →
      Moves codec w { w with up := [], loop := .answering reply } [.of w.up reply]
  | answers (reply : List UInt8) : w.loop = .answering reply →
      Moves codec w { w with down := w.down ++ reply, loop := .waiting } []
  /-- The connection breaks, the daemon stops, or it has read everything. -/
  | ends (left : List UInt8) : left <+: w.down ++ w.loop.rest →
      Moves codec w { w with down := left, loop := .gone } []

/-- A call, with the numbers of the requests that were written for it. -/
structure Asked where
  request : Request
  written : List Nat

inductive Step where
  | begun
  | sent (line : List UInt8)
  | heard (line reply : List UInt8)
  | broken

inductive Phase where
  | idle
  | asking (call : Asked) (step : Step)
  /-- The last call failed on a connection that is still to be dropped. -/
  | failed

def Phase.wrote (number : Nat) (line : List UInt8) (done : Bool) : Phase → Phase
  | .asking call .begun =>
    .asking { call with written := call.written ++ [number] } (if done then .sent line else .broken)
  | phase => phase

def Phase.read : Except String (List UInt8) → Phase → Phase
  | .ok reply, .asking call (.sent line) => .asking call (.heard line reply)
  | .error _, .asking call _ => .asking call .broken
  | _, phase => phase

/-- What the server is doing, and the connection that it keeps. -/
structure Side where
  phase : Phase
  kept : Option Nat

def Side.after (result : Except ClientError Reply) (v : Side) : Side :=
  { v with phase := match result, v.kept with
      | .error _, some _ => .failed
      | _, _ => .idle }

structure World where
  side : Side
  wires : Nat → Wire
  opened : Nat
  /-- The number of requests written. -/
  writes : Nat
  /-- The calls that returned. -/
  calls : List (Asked × Except ClientError Reply)
  served : List Served

namespace World

def start : World := ⟨⟨.idle, none⟩, fun _ => .fresh, 0, 0, [], []⟩

def setWire (s : World) (n : Nat) (w : Wire) : World := { s with wires := Function.update s.wires n w }

def record (s : World) (result : Except ClientError Reply) : List (Asked × Except ClientError Reply) :=
  match s.side.phase with
  | .asking call _ => s.calls ++ [(call, result)]
  | _ => s.calls

/-- A write may stop anywhere, a read may fail at any time, and at the end of the stream it returns
what is left. -/
def Act : (c : Cmd) → World → Ans c → World → Prop
  | .called request, s, _, t => t = { s with side := ⟨.asking ⟨request, []⟩ .begun, s.side.kept⟩ }
  | .returned result, s, _, t =>
    t = { s with side := s.side.after result, calls := s.record result }
  | .connect, s, x, t =>
    match x with
    | .ok conn => conn = s.opened ∧
        t = { s.setWire conn .fresh with side := { s.side with kept := some conn }, opened := conn + 1 }
    | .error _ => t = s
  | .write conn bytes, s, x, t =>
    ∃ part, part <+: bytes ∧ (x = .ok () → part = bytes) ∧
      t = { s.setWire conn { s.wires conn with up := (s.wires conn).up ++ tagged s.writes part } with
        side := { s.side with phase := s.side.phase.wrote s.writes bytes x.isOk }
        writes := s.writes + 1 }
  | .readLine conn, s, x, t =>
    ∃ rest, t = { s.setWire conn { s.wires conn with down := rest } with
        side := { s.side with phase := s.side.phase.read x } } ∧
      ∀ line, x = .ok line → Lines.cut isNewline (s.wires conn).down = some (line, rest) ∨
        (s.wires conn).loop = .gone ∧ Lines.cut isNewline (s.wires conn).down = none ∧
          line = (s.wires conn).down ∧ rest = []
  | .close conn, s, _, t =>
    t = { s.setWire conn { s.wires conn with closed := true } with side := ⟨.idle, none⟩ }
  | .inside _, s, _, t => t = s

/-- The daemon moves on one connection, or the connection ends. -/
def Env (codec : Codec) (s t : World) : Prop :=
  ∃ n w more, Wire.Moves codec (s.wires n) w more ∧
    t = { s.setWire n w with served := s.served ++ more }

def rules (codec : Codec) : Pool.Rules Cmd Ans World Unit := ⟨fun _ => Act, Env codec⟩

end World

end Mcp.Link

end HyprPilot
