import HyprPilot.Mcp.LinkOrder
import HyprPilot.Mcp.LinkTraffic

/-!
# Each reply goes to its request

The result of a call is what the daemon answered to the request that was written for it, and a
connection that is used again is silent: nothing on it is unread and nothing is still to be answered.
-/

namespace HyprPilot
open Interact

namespace Mcp.Link

def AtStep (w : Wire) (served : List Served) (call : Asked) : Step → Prop
  | .begun => call.written = [] ∧ w.Silent
  | .sent line => ∃ k, call.written = [k] ∧ Lines.IsLine isNewline line ∧ Exchange w served k line
  | .heard line reply => ∃ k, call.written = [k] ∧ (reply ≠ [] → Heard w served k line reply)
  | .broken => call.written.length ≤ 1

/-- Where the server is with the connection that it keeps. -/
def Kept (w : Wire) (served : List Served) : Phase → Prop
  | .idle => w.Silent
  | .asking call step => AtStep w served call step
  | .failed => True

/-- A call with a result wrote one request, and the result is what the daemon answered to it. -/
def Attributed (codec : Codec) (served : List Served) (call : Asked)
    (result : Except ClientError Reply) : Prop :=
  call.written.length ≤ 1 ∧ ∀ v, result = .ok v → ∃ id, ∃ e ∈ served, e.number ∈ call.written ∧
    e.line = codec.requestLine id call.request ∧ codec.parseResponse e.reply = .ok (id, .ok v)

def Phase.written : Phase → List Nat
  | .asking call _ => call.written
  | _ => []

namespace World

/-- The requests written for each call, in the order of the calls. -/
def written (s : World) : List Nat := s.calls.flatMap (·.1.written) ++ s.side.phase.written

structure Sound (codec : Codec) (s : World) : Prop where
  traffic : s.Traffic codec
  kept : ∀ n, n < s.opened → (s.wires n).closed = false → s.side.kept = some n
  stage : ∀ n, s.side.kept = some n → Kept (s.wires n) s.served s.side.phase
  unconnected : s.side.kept = none → ∀ call step, s.side.phase = .asking call step →
    step = .begun ∧ call.written = []
  calls : ∀ c ∈ s.calls, Attributed codec s.served c.1 c.2
  numbered : s.written = List.range s.writes

end World

section Moves

variable {codec : Codec} {w w' : Wire} {served more : List Served} {call : Asked} {phase : Phase}

theorem Kept.moves (kept : Kept w served phase) (moves : w.Moves codec w' more) :
    Kept w' (served ++ more) phase := by
  cases phase with
  | idle => exact (Wire.Silent.moves kept moves).1
  | failed => trivial
  | asking call step =>
    cases step with
    | begun => exact ⟨kept.1, (kept.2.moves moves).1⟩
    | broken => exact kept
    | sent line =>
      obtain ⟨k, written, isLine, exchange⟩ := kept
      exact ⟨k, written, isLine, exchange.moves isLine moves⟩
    | heard line reply =>
      obtain ⟨k, written, heard⟩ := kept
      exact ⟨k, written, fun some => (heard some).moves moves⟩

theorem Kept.mono (kept : Kept w served phase) (more : List Served) : Kept w (served ++ more) phase := by
  cases phase with
  | idle => exact kept
  | failed => trivial
  | asking call step =>
    cases step with
    | begun | broken => exact kept
    | sent line =>
      obtain ⟨k, written, isLine, exchange⟩ := kept
      exact ⟨k, written, isLine, exchange.mono more⟩
    | heard line reply =>
      obtain ⟨k, written, heard⟩ := kept
      exact ⟨k, written, fun some => (heard some).mono more⟩

theorem Attributed.mono {result : Except ClientError Reply} (attributed : Attributed codec served call result)
    (more : List Served) : Attributed codec (served ++ more) call result := by
  refine ⟨attributed.1, fun v ok => ?_⟩
  obtain ⟨id, e, member, rest⟩ := attributed.2 v ok
  exact ⟨id, e, List.mem_append_left _ member, rest⟩

end Moves

/-! ### The steps -/

namespace World

section Steps

variable {codec : Codec} {s t : World}

theorem Sound.env (sound : s.Sound codec) (moved : Env codec s t) : t.Sound codec := by
  obtain ⟨n, w, more, moves, rfl⟩ := moved
  have closed : w.closed = (s.wires n).closed := by
    cases moves <;> rfl
  refine ⟨sound.traffic.moves moves, ?_, ?_, sound.unconnected, ?_, sound.numbered⟩
  · intro m opened isOpen
    have isOpen : ((s.setWire n w).wires m).closed = false := isOpen
    rw [setWire_closed closed] at isOpen
    exact sound.kept m opened isOpen
  · intro m kept
    have before := sound.stage m kept
    show Kept ((s.setWire n w).wires m) (s.served ++ more) s.side.phase
    by_cases here : m = n
    · subst here
      rw [setWire_self]
      exact before.moves moves
    · rw [setWire_other here]
      exact before.mono more
  · intro c member
    exact (sound.calls c member).mono more

theorem Sound.wrote_once {call : Asked} {step : Step} (sound : s.Sound codec)
    (asking : s.side.phase = .asking call step) : call.written.length ≤ 1 := by
  cases kept : s.side.kept with
  | none =>
    rw [(sound.unconnected kept call step asking).2]
    exact Nat.zero_le 1
  | some n =>
    have stage := sound.stage n kept
    rw [asking] at stage
    cases step with
    | begun =>
      rw [stage.1]
      exact Nat.zero_le 1
    | broken => exact stage
    | sent line =>
      obtain ⟨k, written, -⟩ := stage
      rw [written]
      exact Nat.le_refl 1
    | heard line reply =>
      obtain ⟨k, written, -⟩ := stage
      rw [written]
      exact Nat.le_refl 1

theorem Sound.attributed {call : Asked} {step : Step} {result : Except ClientError Reply}
    (compact : codec.Compact) (sound : s.Sound codec) (asking : s.side.phase = .asking call step)
    (reads : ∀ reply, result = .ok reply → ∃ id line, step = .heard (codec.requestLine id call.request) line ∧
      line ≠ [] ∧ codec.parseResponse line = .ok (id, .ok reply)) :
    Attributed codec s.served call result := by
  refine ⟨sound.wrote_once asking, fun v ok => ?_⟩
  obtain ⟨id, line, rfl, some, parsed⟩ := reads v ok
  cases kept : s.side.kept with
  | none => cases (sound.unconnected kept _ _ asking).1
  | some n =>
    have stage := sound.stage n kept
    rw [asking] at stage
    obtain ⟨k, written, heard⟩ := stage
    obtain ⟨e, member, number, asked, part⟩ := (heard some).served
    obtain ⟨id', response, shape⟩ := answers_line (sound.traffic.answers e member)
    refine ⟨id, e, member, by rw [written, number]; exact List.mem_singleton_self k, asked, ?_⟩
    rw [shape] at part ⊢
    exact compact.cutOff id' response line _ part parsed

theorem after_unkept {v : Side} {result : Except ClientError Reply} (kept : v.kept = none) :
    (v.after result).phase = .idle := by
  unfold Side.after
  rw [kept]
  cases result <;> rfl

theorem after_written (v : Side) (result : Except ClientError Reply) :
    (v.after result).phase.written = [] := by
  unfold Side.after
  split <;> rfl

theorem read_written (phase : Phase) (x : Except String (List UInt8)) :
    (phase.read x).written = phase.written := by
  unfold Phase.read
  split <;> rfl

theorem Sound.called (sound : s.Sound codec) (idle : s.side.phase = .idle) (request : Request) :
    Sound codec { s with side := ⟨.asking ⟨request, []⟩ .begun, s.side.kept⟩ } := by
  refine ⟨sound.traffic.frame (fun _ => Or.inl rfl) rfl rfl, sound.kept, ?_, ?_, sound.calls, ?_⟩
  · intro n kept
    have silent := sound.stage n kept
    rw [idle] at silent
    exact ⟨rfl, silent⟩
  · intro _ call step asking
    cases asking
    exact ⟨rfl, rfl⟩
  · have numbered := sound.numbered
    rw [written, idle] at numbered
    exact numbered

theorem Sound.returned {call : Asked} {step : Step} {result : Except ClientError Reply}
    (compact : codec.Compact) (sound : s.Sound codec) (asking : s.side.phase = .asking call step)
    (reads : ∀ reply, result = .ok reply → ∃ id line, step = .heard (codec.requestLine id call.request) line ∧
      line ≠ [] ∧ codec.parseResponse line = .ok (id, .ok reply)) :
    Sound codec { s with side := s.side.after result, calls := s.record result } := by
  have recorded : s.record result = s.calls ++ [(call, result)] := by
    simp only [record, asking]
  refine ⟨sound.traffic.frame (fun _ => Or.inl rfl) rfl rfl, sound.kept, ?_, ?_, ?_, ?_⟩
  · intro n same
    have kept : s.side.kept = some n := same
    have stage := sound.stage n kept
    show Kept (s.wires n) s.served (s.side.after result).phase
    cases result with
    | error e =>
      simp only [Side.after, kept]
      trivial
    | ok reply =>
      obtain ⟨id, line, rfl, some, -⟩ := reads reply rfl
      rw [asking] at stage
      obtain ⟨k, -, heard⟩ := stage
      exact (heard some).silent
  · intro unkept other step' left
    have kept : s.side.kept = none := unkept
    have left : (s.side.after result).phase = .asking other step' := left
    rw [after_unkept kept] at left
    cases left
  · intro c member
    have member : c ∈ s.record result := member
    rw [recorded] at member
    rcases List.mem_append.mp member with old | new
    · exact sound.calls c old
    · rw [List.mem_singleton.mp new]
      exact Sound.attributed (s := s) compact sound asking reads
  · show (s.record result).flatMap (·.1.written) ++ (s.side.after result).phase.written = List.range s.writes
    rw [← sound.numbered, recorded, after_written, written, asking]
    simp [Phase.written]

theorem Sound.connected (sound : s.Sound codec) (kept : s.side.kept = none) {request : Request}
    (begun : s.side.phase = .asking ⟨request, []⟩ .begun) :
    Sound codec { s.setWire s.opened .fresh with
      side := { s.side with kept := some s.opened }
      opened := s.opened + 1 } := by
  refine ⟨sound.traffic.frame (frame_setWire (Or.inr rfl)) rfl rfl, ?_, ?_, nofun, sound.calls, sound.numbered⟩
  · intro n opened isOpen
    by_cases here : n = s.opened
    · rw [here]
    · have older : n < s.opened := by
        have opened : n < s.opened + 1 := opened
        omega
      have isOpen : ((s.setWire s.opened .fresh).wires n).closed = false := isOpen
      rw [setWire_other here] at isOpen
      have held := sound.kept n older isOpen
      rw [kept] at held
      cases held
  · intro n same
    obtain rfl : s.opened = n := Option.some.inj same
    show Kept ((s.setWire s.opened .fresh).wires s.opened) s.served s.side.phase
    rw [setWire_self, begun]
    exact ⟨rfl, rfl, rfl, nofun⟩

/-- Only the kept connection and what the server does with it change. -/
theorem Sound.on_kept {conn : Nat} {w : Wire} (sound : s.Sound codec) (kept : s.side.kept = some conn)
    (traffic : t.Traffic codec) (wires : t.wires = (s.setWire conn w).wires)
    (closed : w.closed = (s.wires conn).closed) (side : t.side.kept = some conn) (opened : t.opened = s.opened)
    (served : t.served = s.served) (calls : t.calls = s.calls) (stage : Kept w s.served t.side.phase)
    (numbered : t.written = List.range t.writes) : t.Sound codec := by
  refine ⟨traffic, ?_, ?_, ?_, ?_, numbered⟩
  · intro n older isOpen
    rw [opened] at older
    rw [wires, setWire_closed closed] at isOpen
    rw [side, ← kept]
    exact sound.kept n older isOpen
  · intro n same
    obtain rfl : conn = n := Option.some.inj (side.symm.trans same)
    rw [wires, setWire_self, served]
    exact stage
  · intro unkept
    rw [side] at unkept
    cases unkept
  · rw [calls, served]
    exact sound.calls

theorem Sound.write {conn id : Nat} {request : Request} {part : List UInt8} {done : Bool}
    (compact : codec.Compact) (sound : s.Sound codec) (kept : s.side.kept = some conn)
    (begun : s.side.phase = .asking ⟨request, []⟩ .begun) (cut : part <+: codec.requestLine id request)
    (whole : done = true → part = codec.requestLine id request) :
    Sound codec
      { s.setWire conn { s.wires conn with up := (s.wires conn).up ++ tagged s.writes part } with
        side := { s.side with phase := s.side.phase.wrote s.writes (codec.requestLine id request) done }
        writes := s.writes + 1 } := by
  have silent : (s.wires conn).Silent := by
    have stage := sound.stage conn kept
    rw [begun] at stage
    exact stage.2
  have isLine : Lines.IsLine isNewline (codec.requestLine id request) :=
    isLine_bytes (compact.request id request)
  have up : (s.wires conn).up ++ tagged s.writes part = tagged s.writes part := by
    rw [silent.up, List.nil_append]
  refine sound.on_kept kept (sound.traffic.write isLine cut up _) rfl rfl kept rfl rfl rfl ?_ ?_
  · show Kept _ s.served (s.side.phase.wrote _ _ done)
    rw [begun]
    cases done with
    | false => exact Nat.le_refl 1
    | true =>
      refine ⟨s.writes, rfl, isLine, .unread ?_ silent.down silent.idle⟩
      show (s.wires conn).up ++ _ = _
      rw [up, whole rfl]
  · show s.calls.flatMap (·.1.written) ++ (s.side.phase.wrote _ _ done).written = List.range (s.writes + 1)
    have numbered := sound.numbered
    rw [written, begun] at numbered
    rw [List.range_succ, ← numbered, begun]
    simp [Phase.wrote, Phase.written]

theorem Sound.read {conn : Nat} {call : Asked} {line rest : List UInt8} {x : Except String (List UInt8)}
    (compact : codec.Compact) (sound : s.Sound codec) (kept : s.side.kept = some conn)
    (sent : s.side.phase = .asking call (.sent line))
    (reads : ∀ reply, x = .ok reply → Lines.cut isNewline (s.wires conn).down = some (reply, rest) ∨
      (s.wires conn).loop = .gone ∧ Lines.cut isNewline (s.wires conn).down = none ∧
        reply = (s.wires conn).down ∧ rest = []) :
    Sound codec { s.setWire conn { s.wires conn with down := rest } with
      side := { s.side with phase := s.side.phase.read x } } := by
  have stage := sound.stage conn kept
  rw [sent] at stage
  obtain ⟨k, written, -, exchange⟩ := stage
  have traffic := sound.traffic.frame (t := { s.setWire conn { s.wires conn with down := rest } with
    side := { s.side with phase := s.side.phase.read x } }) (frame_setWire (Or.inl rfl)) rfl rfl
  refine sound.on_kept kept traffic rfl rfl kept rfl rfl rfl ?_ ?_
  · show Kept _ s.served (s.side.phase.read x)
    rw [sent]
    cases x with
    | error e =>
      show call.written.length ≤ 1
      simp [written]
    | ok reply =>
      exact ⟨k, written, Exchange.heard compact sound.traffic.answers exchange (reads reply rfl)⟩
  · show s.calls.flatMap (·.1.written) ++ (s.side.phase.read x).written = List.range s.writes
    rw [read_written]
    exact sound.numbered

theorem Sound.close {conn : Nat} (sound : s.Sound codec) (kept : s.side.kept = some conn)
    (between : ∀ call step, s.side.phase ≠ .asking call step) :
    Sound codec { s.setWire conn { s.wires conn with closed := true } with side := ⟨.idle, none⟩ } := by
  refine ⟨sound.traffic.frame (frame_setWire (Or.inl rfl)) rfl rfl, ?_, nofun, nofun, sound.calls, ?_⟩
  · intro n opened isOpen
    have isOpen : ((s.setWire conn _).wires n).closed = false := isOpen
    by_cases here : n = conn
    · subst here
      rw [setWire_self] at isOpen
      cases isOpen
    · rw [setWire_other here] at isOpen
      have held := sound.kept n opened isOpen
      rw [kept] at held
      exact absurd (Option.some.inj held).symm here
  · have numbered := sound.numbered
    rw [written] at numbered
    cases phase : s.side.phase with
    | asking call step => exact absurd phase (between call step)
    | idle | failed => rwa [phase] at numbered

theorem Sound.act {c : Cmd} {x : Ans c} {t : World} (compact : codec.Compact) (sound : s.Sound codec)
    (orderly : Orderly codec c s.side) (acted : Act c s x t) : t.Sound codec := by
  cases c with
  | called request =>
    rw [acted]
    exact sound.called orderly request
  | returned result =>
    obtain ⟨call, step, asking, reads⟩ := orderly
    rw [acted]
    exact sound.returned compact asking reads
  | connect =>
    obtain ⟨kept, request, begun⟩ := orderly
    cases x with
    | ok conn =>
      obtain ⟨rfl, rfl⟩ := acted
      exact sound.connected kept begun
    | error e =>
      rw [show t = s from acted]
      exact sound
  | write conn bytes =>
    obtain ⟨kept, request, id, begun, rfl⟩ := orderly
    obtain ⟨part, cut, whole, rfl⟩ := acted
    refine sound.write compact kept begun cut fun done => whole ?_
    cases x with
    | ok => rfl
    | error e => cases done
  | readLine conn =>
    obtain ⟨kept, call, line, sent⟩ := orderly
    obtain ⟨rest, rfl, reads⟩ := acted
    exact sound.read compact kept sent reads
  | close conn =>
    rw [acted]
    exact sound.close orderly.1 orderly.2
  | inside c =>
    rw [show t = s from acted]
    exact sound

theorem start_sound (codec : Codec) : Sound codec .start where
  traffic := ⟨List.nodup_nil, by simp [start], by simp [start], fun _ some => absurd rfl some⟩
  kept := by simp [start]
  stage := by simp [start]
  unconnected := by simp [start]
  calls := by simp [start]
  numbered := rfl

/-- No open connection has anything unread. -/
def Quiet (s : World) : Prop := ∀ n, n < s.opened → (s.wires n).closed = false → (s.wires n).Silent

theorem Sound.quiet (sound : s.Sound codec) (idle : s.side.phase = .idle) : s.Quiet := by
  intro n opened isOpen
  have stage := sound.stage n (sound.kept n opened isOpen)
  rwa [idle] at stage

theorem Sound.quiet_begun {call : Asked} (sound : s.Sound codec) (begun : s.side.phase = .asking call .begun) :
    s.Quiet := by
  intro n opened isOpen
  have stage := sound.stage n (sound.kept n opened isOpen)
  rw [begun] at stage
  exact stage.2

end Steps

end World

/-! ### A session -/

/-- What the server still does, in its world. -/
abbrev Serving := Pool Cmd Ans (List (Option JsonRpcResponse) × Option DaemonClient) World Unit

/-- The server before its first line. -/
def serving (codec : Codec) (path : String) (server : Server) (lines : List (Except String JsonRpcRequest)) :
    Serving := ⟨.start, fun _ => linked codec path (server.runStdio lines) none⟩

section Session

variable {codec : Codec} {path : String} {server : Server} {lines : List (Except String JsonRpcRequest)}
  {Q : Serving}

theorem moves_act {c : Cmd} {x : Ans c} {s t : World} (acted : World.Act c s x t) :
    Moves c x s.side t.side := by
  cases c with
  | called | returned | close | inside => rw [acted]; rfl
  | connect =>
    cases x with
    | ok conn =>
      obtain ⟨-, rfl⟩ := acted
      rfl
    | error e =>
      rw [show t = s from acted]
      rfl
  | write conn bytes =>
    obtain ⟨part, -, -, rfl⟩ := acted
    exact ⟨s.writes, rfl⟩
  | readLine conn =>
    obtain ⟨rest, rfl, -⟩ := acted
    rfl

theorem reach_sound (compact : codec.Compact)
    (run : Pool.Reach (World.rules codec) (serving codec path server lines) Q) :
    Q.shared.Sound codec ∧
      (Q.progs ()).wp Moves (Orderly codec) (fun _ v => v.phase = .idle) Q.shared.side := by
  obtain ⟨sound, outlined⟩ := Pool.reach_outlined (fun _ s => s.side) Moves
    (fun _ => Orderly codec) (fun _ _ v => v.phase = .idle) (World.Sound codec)
    (fun _ _ _ _ _ _ acted => moves_act acted) (fun _ _ _ _ _ _ other => absurd rfl other)
    (fun _ _ _ moved => by
      obtain ⟨n, w, more, -, rfl⟩ := moved
      rfl)
    (fun _ _ _ _ _ sound orderly acted => sound.act compact orderly acted)
    (fun _ _ sound moved => sound.env moved) (World.start_sound codec)
    (fun _ => orderly_session codec path server lines) run
  exact ⟨sound, outlined ()⟩

/-- A command that puts a request on a connection that was kept, or is about to. -/
def Cmd.Reuses : Cmd → Prop
  | .called _ | .write _ _ => True
  | _ => False

/-- In every run each result is the daemon's answer to the request that was written for the call, no
request is written or served twice, and a connection is silent when it is used again. -/
theorem replies_attributed (compact : codec.Compact)
    (run : Pool.Reach (World.rules codec) (serving codec path server lines) Q) :
    (∀ c ∈ Q.shared.calls, Attributed codec Q.shared.served c.1 c.2) ∧
      (∀ call step, Q.shared.side.phase = .asking call step → call.written.length ≤ 1) ∧
      Q.shared.written = List.range Q.shared.writes ∧
      (Q.shared.served.map (·.number)).Nodup ∧
      (∀ e ∈ Q.shared.served, e.number < Q.shared.writes ∧ codec.Answers e.line e.reply) ∧
      (Q.shared.side.phase = .idle → Q.shared.Quiet) ∧
      (∀ c k, Q.progs () = .ask c k → c.Reuses → Q.shared.Quiet) ∧
      ∀ out, Q.progs () = .ret out → Q.shared.Quiet := by
  obtain ⟨sound, outlined⟩ := reach_sound compact run
  refine ⟨sound.calls, fun call step asking => sound.wrote_once asking, sound.numbered, sound.traffic.once,
    fun e member => ⟨sound.traffic.old e member, sound.traffic.answers e member⟩, sound.quiet,
    fun c k next reuses => ?_, fun out done => ?_⟩
  · rw [next] at outlined
    have orderly := outlined.1
    cases c with
    | called request => exact sound.quiet orderly
    | write conn bytes =>
      obtain ⟨-, request, id, begun, -⟩ := orderly
      exact sound.quiet_begun begun
    | _ => exact reuses.elim
  · rw [done] at outlined
    exact sound.quiet outlined

end Session

section Cycle

variable {codec : Codec} {P : Serving} {post : Serving → Prop}

def ascii (text : String) : List UInt8 := text.toList.map fun c => c.toNat.toUInt8

def cycleRequest : List UInt8 := ascii "\x7b\"id\":1,\"method\":\"dispatch_cycle_next\"\x7d"

def cycleResponse : List UInt8 := ascii "\x7b\"id\":1,\"result\":null\x7d"

/-- The texts of one exchange; any other is a question mark. -/
def cycleCodec : Codec where
  request
    | 1, .dispatchCycleNext => cycleRequest
    | _, _ => ascii "?"
  response
    | 1, .ok .null => cycleResponse
    | _, _ => ascii "?"
  parseRequest line :=
    if line = cycleRequest ++ [newline] then .ok (1, .dispatchCycleNext) else .error "expected value"
  parseResponse line :=
    if line = cycleResponse ∨ line = cycleResponse ++ [newline] then .ok (1, .ok .null)
    else .error (.encode "expected value")

theorem cycleCodec_compact : cycleCodec.Compact where
  request id request := by
    simp only [cycleCodec]
    split <;> decide
  response id response := by
    simp only [cycleCodec]
    split <;> decide
  cutOff id response part x cut parsed := by
    simp only [cycleCodec, Codec.responseLine] at cut parsed ⊢
    split at cut
    · rw [if_pos (Or.inr rfl)]
      split at parsed
      · exact parsed
      · cases parsed
    · have short : part.length ≤ 2 := cut.length_le
      have real : cycleResponse.length = 22 := by decide
      split at parsed
      · rename_i same
        rcases same with rfl | rfl
        · omega
        · rw [List.length_append] at short
          omega
      · cases parsed

theorem cycle_answers : cycleCodec.Answers (cycleRequest ++ [newline]) (cycleResponse ++ [newline]) := by
  simp only [Codec.Answers, cycleCodec, if_true]
  exact ⟨.ok .null, rfl⟩

/-- One call that steps the focus. -/
def cycling : Serving :=
  serving cycleCodec "/run/hyprpilot" ⟨.unrestricted, "0.2"⟩
    [.ok (toolsCall "cycle_next" (.obj [("dry_run", .bool false)]))]

/-- The server's next command, on the way to a state with a property. -/
theorem reaches_act (c : Cmd) {k : Ans c → Prog Cmd Ans (List (Option JsonRpcResponse) × Option DaemonClient)}
    (x : Ans c) {t : World} (next : P.progs () = .ask c k) (acted : World.Act c P.shared x t)
    (rest : ∃ Q, Pool.Reach (World.rules codec) ⟨t, Function.update P.progs () (k x)⟩ Q ∧ post Q) :
    ∃ Q, Pool.Reach (World.rules codec) P Q ∧ post Q := by
  obtain ⟨Q, run, reached⟩ := rest
  exact ⟨Q, .head (.act () x next acted) run, reached⟩

theorem reaches_env {n : Nat} {w : Wire} {more : List Served} (moves : (P.shared.wires n).Moves codec w more)
    (rest : ∃ Q, Pool.Reach (World.rules codec)
      ⟨{ P.shared.setWire n w with served := P.shared.served ++ more }, P.progs⟩ Q ∧ post Q) :
    ∃ Q, Pool.Reach (World.rules codec) P Q ∧ post Q := by
  obtain ⟨Q, run, reached⟩ := rest
  exact ⟨Q, .head (.env ⟨n, w, more, moves, rfl⟩) run, reached⟩

theorem cycle_run : ∃ Q, Pool.Reach (World.rules cycleCodec) cycling Q ∧
    Q.shared.calls = [(⟨.dispatchCycleNext, [0]⟩, .ok .null)] := by
  have sent : Lines.IsLine isNewline (cycleRequest ++ [newline]) := isLine_bytes (by decide)
  have answered : Lines.IsLine isNewline (cycleResponse ++ [newline]) := isLine_bytes (by decide)
  have reads : Lines.cut endsLine (tagged 0 (cycleRequest ++ [newline])) = some (_, []) :=
    Lines.cut_line (isLine_tagged sent)
  have answers : cycleCodec.Answers ((tagged 0 (cycleRequest ++ [newline])).map Prod.snd)
      (cycleResponse ++ [newline]) := by
    rw [tagged_bytes]
    exact cycle_answers
  refine reaches_act (.called .dispatchCycleNext) () rfl rfl ?_
  refine reaches_act .connect (.ok 0) rfl ⟨rfl, rfl⟩ ?_
  refine reaches_act (.write 0 (cycleRequest ++ [newline])) (.ok ()) rfl ⟨_, List.prefix_rfl, fun _ => rfl, rfl⟩ ?_
  refine reaches_env (n := 0) (.reads _ _ _ rfl reads answers) ?_
  refine reaches_env (n := 0) (.answers _ rfl) ?_
  refine reaches_act (.readLine 0) (.ok (cycleResponse ++ [newline])) rfl ⟨[], rfl, ?_⟩ ?_
  · intro line same
    cases same
    exact Or.inl (Lines.cut_line answered)
  refine reaches_act (.returned (.ok .null)) () rfl rfl ?_
  exact ⟨_, .refl, rfl⟩

/-- The reply to the one call is the daemon's. -/
theorem replies_attributed_cycle : ∃ Q, Pool.Reach (World.rules cycleCodec) cycling Q ∧
    Q.shared.calls = [(⟨.dispatchCycleNext, [0]⟩, .ok .null)] ∧
    ∀ c ∈ Q.shared.calls, Attributed cycleCodec Q.shared.served c.1 c.2 := by
  obtain ⟨Q, run, calls⟩ := cycle_run
  exact ⟨Q, run, calls, (replies_attributed cycleCodec_compact run).1⟩

end Cycle

end Mcp.Link

end HyprPilot
