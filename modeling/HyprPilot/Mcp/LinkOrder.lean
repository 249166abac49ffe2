import HyprPilot.Mcp.Link
import HyprPilot.Mcp.Replies

/-!
# The order of a session's requests

The server writes one line for a call, reads one line for it, and begins another call only when no
failed connection is left: every handler drops the connection after a failed request.
-/

namespace HyprPilot
open Interact

namespace Mcp.Link

def Moves : (c : Cmd) → Ans c → Side → Side → Prop
  | .called request, _, v, w => w = ⟨.asking ⟨request, []⟩ .begun, v.kept⟩
  | .returned result, _, v, w => w = v.after result
  | .connect, x, v, w =>
    match x with
    | .ok conn => w = { v with kept := some conn }
    | .error _ => w = v
  | .write _ bytes, x, v, w => ∃ k, w = { v with phase := v.phase.wrote k bytes x.isOk }
  | .readLine _, x, v, w => w = { v with phase := v.phase.read x }
  | .close _, _, _, w => w = ⟨.idle, none⟩
  | .inside _, _, v, w => w = v

/-- What the server must have done before a command. -/
def Orderly (codec : Codec) : Cmd → Side → Prop
  | .called _, v => v.phase = .idle
  | .returned result, v => ∃ call step, v.phase = .asking call step ∧ ∀ reply, result = .ok reply →
      ∃ id line, step = .heard (codec.requestLine id call.request) line ∧ line ≠ [] ∧
        codec.parseResponse line = .ok (id, .ok reply)
  | .connect, v => v.kept = none ∧ ∃ request, v.phase = .asking ⟨request, []⟩ .begun
  | .write conn bytes, v => v.kept = some conn ∧
      ∃ request id, v.phase = .asking ⟨request, []⟩ .begun ∧ bytes = codec.requestLine id request
  | .readLine conn, v => v.kept = some conn ∧ ∃ call line, v.phase = .asking call (.sent line)
  | .close conn, v => v.kept = some conn ∧ ∀ call step, v.phase ≠ .asking call step
  | .inside _, _ => True

section Order

variable {codec : Codec} {path : String} {request : Request} {v : Side}

theorem received_ok {id : Nat} {line : List UInt8} {reply : Reply}
    (ok : received codec id line = .ok reply) :
    line ≠ [] ∧ codec.parseResponse line = .ok (id, .ok reply) := by
  unfold received at ok
  split at ok
  · cases ok
  · rename_i some
    refine ⟨some, ?_⟩
    split at ok
    · cases ok
    · rename_i got response parsed
      split at ok
      · cases ok
      · rename_i same
        rw [parsed]
        split at ok
        · cases ok
          rw [not_not.mp same]
        · cases ok

/-- The state after a call, before it is recorded. -/
def Finished (codec : Codec) (request : Request) (conn : Nat) (result : Except ClientError Reply)
    (w : Side) : Prop :=
  w.kept = some conn ∧ ∃ call step, w.phase = .asking call step ∧ call.request = request ∧
    ∀ reply, result = .ok reply → ∃ id line, step = .heard (codec.requestLine id request) line ∧
      line ≠ [] ∧ codec.parseResponse line = .ok (id, .ok reply)

theorem orderly_callRaw (d : DaemonClient) (kept : v.kept = some d.conn)
    (begun : v.phase = .asking ⟨request, []⟩ .begun) :
    (d.callRaw codec request).wp Moves (Orderly codec)
      (fun out w => out.2.conn = d.conn ∧ Finished codec request d.conn out.1 w) v := by
  obtain ⟨phase, slot⟩ := v
  subst begun
  subst kept
  refine ⟨⟨rfl, request, d.nextId, rfl, rfl⟩, ?_⟩
  rintro (e | _) _ ⟨k, rfl⟩
  · exact ⟨rfl, rfl, _, _, rfl, rfl, fun _ same => nomatch same⟩
  · refine ⟨⟨rfl, _, _, rfl⟩, ?_⟩
    rintro (e | line) _ rfl
    · exact ⟨rfl, rfl, _, _, rfl, rfl, fun _ same => nomatch same⟩
    · refine ⟨rfl, rfl, _, _, rfl, rfl, fun reply ok => ?_⟩
      obtain ⟨some, parsed⟩ := received_ok ok
      exact ⟨d.nextId, line, rfl, some, parsed⟩

def Between (failed : Bool) (slot : Option DaemonClient) (w : Side) : Prop :=
  w.kept = slot.map (·.conn) ∧ (w.phase = .idle ∨ w.phase = .failed ∧ failed = true ∧ slot.isSome)

theorem orderly_callOn (d : DaemonClient) (kept : v.kept = some d.conn)
    (begun : v.phase = .asking ⟨request, []⟩ .begun) :
    (d.callRaw codec request >>= fun out =>
      (.call (Cmd.returned out.1) : Call Unit) >>= fun _ => pure (out.1, some out.2)).wp Moves
        (Orderly codec)
      (fun out w => Between (!out.1.isOk) out.2 w) v := by
  refine Prog.wp_bind.mpr (Prog.wp_mono ?_ (orderly_callRaw d kept begun))
  rintro ⟨result, d'⟩ ⟨phase, slot⟩ ⟨conn, rfl, call, step, rfl, rfl, reads⟩
  refine ⟨⟨call, step, rfl, reads⟩, ?_⟩
  rintro _ _ rfl
  refine ⟨by rw [← conn]; rfl, ?_⟩
  cases result with
  | ok reply => exact Or.inl rfl
  | error e => exact Or.inr ⟨rfl, rfl, rfl⟩

theorem orderly_callDaemon {slot : Option DaemonClient} (idle : v.phase = .idle)
    (kept : v.kept = slot.map (·.conn)) :
    (callDaemon codec path slot request).wp Moves (Orderly codec)
      (fun out w => Between (!out.1.isOk) out.2 w) v := by
  obtain ⟨phase, held⟩ := v
  subst idle
  subst kept
  refine ⟨rfl, ?_⟩
  rintro _ _ rfl
  cases slot with
  | some d => exact orderly_callOn d rfl rfl
  | none =>
    refine ⟨⟨rfl, request, rfl⟩, ?_⟩
    rintro (e | conn) _ rfl
    · refine ⟨⟨_, _, rfl, fun _ same => nomatch same⟩, ?_⟩
      rintro _ _ rfl
      exact ⟨rfl, Or.inl rfl⟩
    · exact orderly_callOn ⟨conn, 1⟩ rfl rfl

theorem orderly_linked {α : Type} {p : Session α} {failed : Bool} {post : α → Bool → Prop}
    (tidy : p.wp Fails Sendable post failed) {slot : Option DaemonClient} (between : Between failed slot v) :
    (linked codec path p slot).wp Moves (Orderly codec)
      (fun out w => ∃ failed, post out.1 failed ∧ Between failed out.2 w) v := by
  induction p generalizing failed slot v with
  | ret a => exact ⟨failed, tidy, between⟩
  | ask c k ih =>
    obtain ⟨sendable, later⟩ := tidy
    cases c with
    | daemon request =>
      obtain rfl : failed = false := sendable
      have idle : v.phase = .idle := by
        rcases between.2 with idle | ⟨-, failed, -⟩
        · exact idle
        · cases failed
      refine Prog.wp_bind.mpr (Prog.wp_mono ?_ (orderly_callDaemon idle between.1))
      rintro ⟨result, slot'⟩ w after
      refine ih result (later result _ ?_) after
      cases result <;> rfl
    | dropDaemon =>
      refine Prog.wp_bind.mpr ?_
      cases slot with
      | none =>
        have idle : v.phase = .idle := by
          rcases between.2 with idle | ⟨-, -, some⟩
          · exact idle
          · cases some
        exact ih () (later () false rfl) ⟨between.1, Or.inl idle⟩
      | some d =>
        refine ⟨⟨between.1, fun call step asking => ?_⟩, ?_⟩
        · rcases between.2 with idle | ⟨failed, -, -⟩
          · rw [idle] at asking
            cases asking
          · rw [failed] at asking
            cases asking
        · rintro _ _ rfl
          exact ih () (later () false rfl) ⟨rfl, Or.inl rfl⟩
    | _ =>
      refine ⟨trivial, ?_⟩
      rintro x _ rfl
      exact ih x (later x failed rfl) between

end Order

/-! ### A whole session -/

theorem tidy_handle (server : Server) (request : JsonRpcRequest) :
    Tidy (fun _ => True) (server.handle request) := by
  unfold Server.handle
  split
  · exact tidy_ret trivial
  · split
    · exact tidy_ret trivial
    · exact tidy_ret trivial
    · exact tidy_ret trivial
    · exact tidy_ret trivial
    · exact tidy_bind (tidy_handleCallTool server request) fun _ _ => tidy_ret trivial
    · exact tidy_ret trivial

theorem tidy_runStdio (server : Server) (lines : List (Except String JsonRpcRequest)) :
    Tidy (fun _ => True) (server.runStdio lines) := by
  induction lines with
  | nil => exact tidy_ret trivial
  | cons line rest ih =>
    have first : Tidy (fun _ => True) (server.handleLine line) := by
      cases line with
      | ok request => exact tidy_handle server request
      | error e => exact tidy_ret trivial
    exact tidy_bind first fun _ _ => tidy_bind ih fun _ _ => tidy_ret trivial

theorem orderly_session (codec : Codec) (path : String) (server : Server)
    (lines : List (Except String JsonRpcRequest)) :
    (linked codec path (server.runStdio lines) none).wp Moves (Orderly codec)
      (fun _ w => w.phase = .idle) ⟨.idle, none⟩ := by
  refine Prog.wp_mono ?_ (orderly_linked (tidy_runStdio server lines) ⟨rfl, Or.inl rfl⟩)
  rintro _ w ⟨_, ⟨rfl, -⟩, -, idle | ⟨-, failed, -⟩⟩
  · exact idle
  · cases failed

end Mcp.Link

end HyprPilot
