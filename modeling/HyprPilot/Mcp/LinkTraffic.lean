import HyprPilot.Mcp.Link

/-!
# What is on the wires

At most one request is on its way over a connection, and no two connections carry the same one. The
line that the server reads after a request that it wrote on a silent connection is the daemon's
answer to it, or the beginning of the answer.
-/

namespace HyprPilot
open Interact

namespace Mcp.Link

/-- Nothing is unread in either direction, and no answer is to come. -/
structure Wire.Silent (w : Wire) : Prop where
  up : w.up = []
  down : w.down = []
  idle : ∀ reply, w.loop ≠ .answering reply

/-- A request that was written on a wire and whose answer the server has not read yet. -/
inductive Exchange (w : Wire) (served : List Served) (k : Nat) (line : List UInt8) : Prop where
  | unread : w.up = tagged k line → w.down = [] → (∀ reply, w.loop ≠ .answering reply) →
      Exchange w served k line
  | read (e : Served) : e ∈ served → e.number = k → e.line = line → w.up = [] →
      (∀ reply, w.loop = .answering reply → reply = e.reply ∧ w.down = []) →
      w.down <+: e.reply → Exchange w served k line

/-- What the server read is the daemon's answer, cut off perhaps. -/
structure Heard (w : Wire) (served : List Served) (k : Nat) (line reply : List UInt8) : Prop where
  silent : w.Silent
  served : ∃ e ∈ served, e.number = k ∧ e.line = line ∧ reply <+: e.reply

namespace World

/-- The requests over a wire: one line, or the beginning of one, that no other wire carries. -/
structure Carries (s : World) (n k : Nat) (line : List UInt8) : Prop where
  part : (s.wires n).up <+: tagged k line
  old : k < s.writes
  unserved : ∀ e ∈ s.served, e.number ≠ k
  only : ∀ m, m ≠ n → ∀ b ∈ (s.wires m).up, b.1 ≠ k

structure Traffic (codec : Codec) (s : World) : Prop where
  once : (s.served.map (·.number)).Nodup
  old : ∀ e ∈ s.served, e.number < s.writes
  answers : ∀ e ∈ s.served, codec.Answers e.line e.reply
  up : ∀ n, (s.wires n).up ≠ [] → ∃ k line, Lines.IsLine isNewline line ∧ s.Carries n k line

end World

/-! ### Bytes and their numbers -/

section Tagged

variable {k : Nat} {line : List UInt8} {up : List (Nat × UInt8)}

theorem tagged_bytes (k : Nat) (line : List UInt8) : (tagged k line).map Prod.snd = line := by
  simp [tagged, Function.comp_def]

theorem mem_tagged {b : Nat × UInt8} (member : b ∈ tagged k line) : b.1 = k := by
  obtain ⟨_, -, rfl⟩ := List.mem_map.mp member
  rfl

theorem isLine_tagged (isLine : Lines.IsLine isNewline line) : Lines.IsLine endsLine (tagged k line) := by
  obtain ⟨body, a, rfl, last, inner⟩ := isLine
  refine ⟨tagged k body, (k, a), by simp [tagged], last, fun b member => ?_⟩
  obtain ⟨c, here, rfl⟩ := List.mem_map.mp member
  exact inner c here

theorem numberOf_part (part : up <+: tagged k line) (some : up ≠ []) : numberOf up = k := by
  cases up with
  | nil => exact absurd rfl some
  | cons b rest => exact mem_tagged (part.subset List.mem_cons_self)

/-- The daemon reads the one request of a wire as a whole. -/
theorem cut_tagged {taken rest : List (Nat × UInt8)} (isLine : Lines.IsLine isNewline line)
    (part : up <+: tagged k line) (cut : Lines.cut endsLine up = some (taken, rest)) :
    taken = tagged k line ∧ rest = [] :=
  (Lines.cut_of_prefix (isLine_tagged isLine) part cut).2

end Tagged

/-! ### One connection -/

section Moves

variable {codec : Codec} {w w' : Wire} {served more : List Served} {k : Nat} {line : List UInt8}

theorem rest_quiet {loop : Loop} (quiet : ∀ reply, loop ≠ .answering reply) : loop.rest = [] := by
  cases loop with
  | answering reply => exact absurd rfl (quiet reply)
  | waiting | gone => rfl

theorem Wire.Silent.moves (silent : w.Silent) (moves : w.Moves codec w' more) : w'.Silent ∧ more = [] := by
  cases moves with
  | reads taken rest reply _ cut =>
    rw [silent.up] at cut
    cases cut
  | readsLast reply _ _ some => exact absurd silent.up some
  | answers reply answering => exact absurd answering (silent.idle reply)
  | ends left part =>
    rw [silent.down, rest_quiet silent.idle] at part
    exact ⟨⟨silent.up, List.prefix_nil.mp part, nofun⟩, rfl⟩

theorem Exchange.moves (isLine : Lines.IsLine isNewline line) (exchange : Exchange w served k line)
    (moves : w.Moves codec w' more) : Exchange w' (served ++ more) k line := by
  cases exchange with
  | unread up down quiet =>
    cases moves with
    | reads taken rest reply waiting cut answers =>
      obtain ⟨rfl, rfl⟩ := cut_tagged isLine (by rw [up]) cut
      have some : tagged k line ≠ [] := (isLine_tagged isLine).ne_nil
      refine .read (.of (tagged k line) reply) (by simp) (numberOf_part List.prefix_rfl some)
        (tagged_bytes k line) rfl (fun r same => ?_) ?_
      · cases same
        exact ⟨rfl, down⟩
      · show w.down <+: _
        rw [down]
        exact List.nil_prefix
    | readsLast reply _ _ _ none =>
      rw [up, Lines.cut_line (isLine_tagged isLine)] at none
      cases none
    | answers reply answering => exact absurd answering (quiet reply)
    | ends left part =>
      rw [down, rest_quiet quiet] at part
      exact .unread up (List.prefix_nil.mp part) nofun
  | read e member number asked up answering part =>
    have kept : e ∈ served ++ more := List.mem_append_left _ member
    cases moves with
    | reads taken rest reply _ cut =>
      rw [up] at cut
      cases cut
    | readsLast reply _ _ some => exact absurd up some
    | answers reply loop =>
      obtain ⟨rfl, down⟩ := answering reply loop
      refine .read e kept number asked up nofun ?_
      show w.down ++ e.reply <+: e.reply
      rw [down]
      exact List.prefix_rfl
    | ends left cut =>
      refine .read e kept number asked up nofun (cut.trans ?_)
      cases loop : w.loop with
      | answering reply =>
        obtain ⟨rfl, down⟩ := answering reply loop
        rw [down]
        exact List.prefix_rfl
      | _ =>
        show w.down ++ [] <+: e.reply
        rwa [List.append_nil]

theorem Exchange.mono (exchange : Exchange w served k line) (more : List Served) :
    Exchange w (served ++ more) k line := by
  cases exchange with
  | unread up down quiet => exact .unread up down quiet
  | read e member number asked up answering part =>
    exact .read e (List.mem_append_left _ member) number asked up answering part

theorem Heard.mono {reply : List UInt8} (heard : Heard w served k line reply) (more : List Served) :
    Heard w (served ++ more) k line reply := by
  obtain ⟨e, member, rest⟩ := heard.served
  exact ⟨heard.silent, e, List.mem_append_left _ member, rest⟩

theorem Heard.moves {reply : List UInt8} (heard : Heard w served k line reply)
    (moves : w.Moves codec w' more) : Heard w' (served ++ more) k line reply :=
  ⟨(heard.silent.moves moves).1, (heard.mono more).served⟩

theorem isLine_bytes {bytes : List UInt8} (inner : newline ∉ bytes) :
    Lines.IsLine isNewline (bytes ++ [newline]) := by
  refine Lines.isLine_append rfl fun b member => ?_
  by_contra same
  have equal : b = newline := by simpa [isNewline] using same
  rw [equal] at member
  exact inner member

theorem answers_line {line reply : List UInt8} (answers : codec.Answers line reply) :
    ∃ id response, reply = codec.responseLine id response := by
  unfold Codec.Answers at answers
  split at answers
  · obtain ⟨response, same⟩ := answers
    exact ⟨_, response, same⟩
  · exact ⟨0, _, answers⟩

/-- The line that the server reads is the answer, or what came of it before the connection ended. -/
theorem Exchange.heard {served : List Served} {reply rest : List UInt8} (compact : codec.Compact)
    (answers : ∀ e ∈ served, codec.Answers e.line e.reply) (exchange : Exchange w served k line)
    (read : Lines.cut isNewline w.down = some (reply, rest) ∨
      w.loop = .gone ∧ Lines.cut isNewline w.down = none ∧ reply = w.down ∧ rest = [])
    (some : reply ≠ []) : Heard { w with down := rest } served k line reply := by
  cases exchange with
  | unread up down quiet =>
    rw [down] at read
    rcases read with cut | ⟨-, -, rfl, -⟩
    · cases cut
    · exact absurd rfl some
  | read e member number asked up answering part =>
    rcases read with cut | ⟨gone, -, rfl, rfl⟩
    · obtain ⟨id, response, shape⟩ := answers_line (answers e member)
      have isLine : Lines.IsLine isNewline e.reply := by
        rw [shape]
        exact isLine_bytes (compact.response id response)
      obtain ⟨down, rfl, rfl⟩ := Lines.cut_of_prefix isLine part cut
      refine ⟨⟨up, rfl, fun r loop => ?_⟩, e, member, number, asked, List.prefix_rfl⟩
      have nothing := (answering r loop).2
      rw [down] at nothing
      exact some nothing
    · refine ⟨⟨up, rfl, fun r loop => ?_⟩, e, member, number, asked, part⟩
      have loop : w.loop = .answering r := loop
      rw [gone] at loop
      cases loop

end Moves

/-! ### All connections -/

namespace World

section Traffic

variable {codec : Codec} {s t : World} {n k : Nat} {w : Wire} {line : List UInt8}

theorem setWire_self (s : World) (n : Nat) (w : Wire) : (s.setWire n w).wires n = w :=
  Function.update_self ..

theorem setWire_other {m : Nat} (different : m ≠ n) : (s.setWire n w).wires m = s.wires m :=
  Function.update_of_ne different ..

/-- A request stays on its wire when nobody else takes it up. -/
theorem Carries.keep {m : Nat} (carries : s.Carries m k line) (same : (t.wires m).up = (s.wires m).up)
    (writes : s.writes ≤ t.writes) (unserved : ∀ e ∈ t.served, e.number ≠ k)
    (others : ∀ j, j ≠ m → ∀ b ∈ (t.wires j).up, b ∈ (s.wires j).up ∨ b.1 ≠ k) : t.Carries m k line := by
  refine ⟨by rw [same]; exact carries.part, Nat.lt_of_lt_of_le carries.old writes, unserved,
    fun j different b member => ?_⟩
  rcases others j different b member with before | foreign
  · exact carries.only j different b before
  · exact foreign

/-- Nothing happens to what is on its way to the daemon, except that it may be lost. -/
theorem Traffic.frame (traffic : s.Traffic codec)
    (up : ∀ m, (t.wires m).up = (s.wires m).up ∨ (t.wires m).up = [])
    (writes : t.writes = s.writes) (served : t.served = s.served) : t.Traffic codec := by
  refine ⟨by rw [served]; exact traffic.once, ?_, by rw [served]; exact traffic.answers, fun m some => ?_⟩
  · rw [served, writes]
    exact traffic.old
  · have here : (t.wires m).up = (s.wires m).up := (up m).resolve_right some
    rw [here] at some
    obtain ⟨k, line, isLine, carries⟩ := traffic.up m some
    refine ⟨k, line, isLine, carries.keep here writes.ge (by rw [served]; exact carries.unserved) ?_⟩
    intro j _ b member
    rcases up j with same | none
    · exact Or.inl (same ▸ member)
    · rw [none] at member
      cases member

theorem setWire_up (s : World) (n : Nat) (w : Wire) (m : Nat) :
    ((s.setWire n w).wires m).up = if m = n then w.up else (s.wires m).up := by
  by_cases here : m = n
  · subst here
    rw [setWire_self, if_pos rfl]
  · rw [setWire_other here, if_neg here]

theorem setWire_closed (same : w.closed = (s.wires n).closed) (m : Nat) :
    ((s.setWire n w).wires m).closed = (s.wires m).closed := by
  by_cases here : m = n
  · subst here
    rw [setWire_self, same]
  · rw [setWire_other here]

theorem frame_setWire (kept : w.up = (s.wires n).up ∨ w.up = []) (m : Nat) :
    ((s.setWire n w).wires m).up = (s.wires m).up ∨ ((s.setWire n w).wires m).up = [] := by
  rw [setWire_up]
  split
  · rename_i here
    rwa [here]
  · exact Or.inl rfl

theorem Traffic.serve {taken : List (Nat × UInt8)} {reply : List UInt8} (traffic : s.Traffic codec)
    (carries : s.Carries n k line) (number : numberOf taken = k) (empty : w.up = [])
    (answers : codec.Answers (taken.map Prod.snd) reply) :
    Traffic codec { s.setWire n w with served := s.served ++ [.of taken reply] } := by
  have wired (m : Nat) : ((s.setWire n w).wires m).up = if m = n then [] else (s.wires m).up := by
    rw [setWire_up, empty]
  refine ⟨?_, fun e member => ?_, fun e member => ?_, fun m some => ?_⟩
  · show ((s.served ++ [Served.of taken reply]).map (·.number)).Nodup
    rw [List.map_append, List.nodup_append]
    refine ⟨traffic.once, by simp, fun a old b new same => ?_⟩
    obtain ⟨e, member, rfl⟩ := List.mem_map.mp old
    obtain rfl : b = numberOf taken := List.mem_singleton.mp new
    exact carries.unserved e member (same.trans number)
  · rcases List.mem_append.mp member with old | new
    · exact traffic.old e old
    · rw [List.mem_singleton.mp new]
      show numberOf taken < s.writes
      rw [number]
      exact carries.old
  · rcases List.mem_append.mp member with old | new
    · exact traffic.answers e old
    · rw [List.mem_singleton.mp new]
      exact answers
  · have some : ((s.setWire n w).wires m).up ≠ [] := some
    rw [wired] at some
    split at some
    · exact absurd rfl some
    · rename_i away
      obtain ⟨j, other, isLine, theirs⟩ := traffic.up m some
      obtain ⟨b, member⟩ := List.exists_mem_of_ne_nil _ some
      have named : b.1 = j := mem_tagged (theirs.part.subset member)
      have different : j ≠ k := by
        rw [← named]
        exact carries.only m away b member
      refine ⟨j, other, isLine, theirs.keep ?_ (Nat.le_refl _) (fun e member => ?_) fun i _ b member => ?_⟩
      · exact (wired m).trans (if_neg away)
      · rcases List.mem_append.mp member with old | new
        · exact theirs.unserved e old
        · rw [List.mem_singleton.mp new]
          intro served
          exact different (served.symm.trans number)
      · have member : b ∈ ((s.setWire n w).wires i).up := member
        rw [wired] at member
        split at member
        · cases member
        · exact Or.inl member

theorem Traffic.moves {more : List Served} (traffic : s.Traffic codec)
    (moves : (s.wires n).Moves codec w more) :
    Traffic codec { s.setWire n w with served := s.served ++ more } := by
  have framed (same : w.up = (s.wires n).up) (none : more = []) :
      Traffic codec { s.setWire n w with served := s.served ++ more } := by
    exact traffic.frame (frame_setWire (Or.inl same)) rfl (by rw [none, List.append_nil])
  cases moves with
  | reads taken rest reply _ cut answers =>
    have some : (s.wires n).up ≠ [] := by
      intro none
      rw [none] at cut
      cases cut
    obtain ⟨k, line, isLine, carries⟩ := traffic.up n some
    obtain ⟨rfl, rfl⟩ := cut_tagged isLine carries.part cut
    exact traffic.serve carries (numberOf_part List.prefix_rfl (isLine_tagged isLine).ne_nil) rfl answers
  | readsLast reply _ _ some _ answers =>
    obtain ⟨k, line, -, carries⟩ := traffic.up n some
    exact traffic.serve carries (numberOf_part carries.part some) rfl answers
  | answers | ends => exact framed rfl rfl

/-- A request is written, as a whole or in part, on a wire that carries no other. -/
theorem Traffic.write {part : List UInt8} (traffic : s.Traffic codec) (isLine : Lines.IsLine isNewline line)
    (cut : part <+: line) (up : w.up = tagged s.writes part) (side : Side) :
    Traffic codec { s.setWire n w with side := side, writes := s.writes + 1 } := by
  have unwritten : ∀ m, ∀ b ∈ (s.wires m).up, b.1 < s.writes := by
    intro m b member
    obtain ⟨k, other, -, carries⟩ := traffic.up m (List.ne_nil_of_mem member)
    rw [mem_tagged (carries.part.subset member)]
    exact carries.old
  have wired (m : Nat) : ((s.setWire n w).wires m).up = if m = n then tagged s.writes part else (s.wires m).up := by
    rw [setWire_up, up]
  refine ⟨traffic.once, fun e member => Nat.lt_succ_of_lt (traffic.old e member), traffic.answers,
    fun m some => ?_⟩
  have some : ((s.setWire n w).wires m).up ≠ [] := some
  by_cases here : m = n
  · subst here
    refine ⟨s.writes, line, isLine, ?_, Nat.lt_succ_self _, fun e member => ?_, fun i away b member => ?_⟩
    · show ((s.setWire m w).wires m).up <+: _
      rw [wired, if_pos rfl]
      exact cut.map _
    · exact Nat.ne_of_lt (traffic.old e member)
    · have member : b ∈ ((s.setWire m w).wires i).up := member
      rw [wired, if_neg away] at member
      exact Nat.ne_of_lt (unwritten i b member)
  · rw [wired, if_neg here] at some
    obtain ⟨k, other, otherLine, carries⟩ := traffic.up m some
    refine ⟨k, other, otherLine, carries.keep ?_ (Nat.le_succ _) carries.unserved fun i _ b member => ?_⟩
    · exact (wired m).trans (if_neg here)
    · have member : b ∈ ((s.setWire n w).wires i).up := member
      rw [wired] at member
      split at member
      · rw [mem_tagged member]
        exact Or.inr (Nat.ne_of_gt carries.old)
      · exact Or.inl member

end Traffic

end World

end Mcp.Link

end HyprPilot
