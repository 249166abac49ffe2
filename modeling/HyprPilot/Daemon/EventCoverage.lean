import HyprPilot.Daemon.CacheFreshness
import HyprPilot.Daemon.EventTable

/-!
# Clean fields are live

Readers share the cache while Hyprland changes and its events are applied, none of them while a query
is in flight. As long as no change is overlooked in a field that somebody holds clean, every clean
field equals Hyprland's own value once all events have been applied.
-/

namespace HyprPilot
open Interact

namespace StateCache

/-! ### Titles -/

def titled (address title : String) : Client → Client := onWindow address fun c => { c with title := title }

def titleEvent (p : Pointer) (title : String) : RawEvent := ⟨"windowtitlev2", p.hex ++ "," ++ title⟩

/-- What an event does to a cached window. -/
def retouch (raw : RawEvent) : Client → Client :=
  if raw.name = "windowtitlev2" then
    match (Event.fromRaw raw).field "address", (Event.fromRaw raw).field "title" with
    | some address, some title => titled address title
    | _, _ => id
  else id

section Titles

variable {raw : RawEvent} {cs : List Client} {address title : String}

theorem titleEvent_fields (p : Pointer) (title : String) :
    (Event.fromRaw (titleEvent p title)).field "address" = some p.address ∧
      (Event.fromRaw (titleEvent p title)).field "title" = some title := by
  have comma : String.singleton ',' = "," := rfl
  have parts : Text.splitOn ',' (p.hex ++ "," ++ title) = p.hex :: Text.splitOn ',' title := by
    rw [← comma]
    exact Text.splitOn_append (Pointer.hex_ne rfl) title
  have joined : Event.commaJoin (Text.splitOn ',' title) = title := Text.joinWith_splitOn ',' title
  obtain ⟨first, more, shape⟩ : ∃ first more, Text.splitOn ',' title = first :: more := by
    apply List.exists_cons_of_ne_nil
    simp [Text.splitOn]
  have full : (p.hex ++ "," ++ title).isEmpty = false := by
    simp
  have fields : (Event.fromRaw (titleEvent p title)).fields = [("address", p.address), ("title", title)] := by
    show Event.extractFields "windowtitlev2" (p.hex ++ "," ++ title) = _
    unfold Event.extractFields
    rw [full, parts, shape]
    show [("address", Event.normalizeAddr p.hex), ("title", Event.commaJoin (first :: more))] = _
    rw [← shape, joined, p.address_ofHex]
  unfold Event.field
  rw [fields]
  exact ⟨rfl, rfl⟩

theorem retouch_titleEvent (p : Pointer) (title : String) :
    retouch (titleEvent p title) = titled p.address title := by
  obtain ⟨address, named⟩ := titleEvent_fields p title
  have kind : (titleEvent p title).name = "windowtitlev2" := rfl
  unfold retouch
  rw [if_pos kind, address, named]

theorem retouch_cases (raw : RawEvent) :
    retouch raw = id ∨ ∃ address title, retouch raw = titled address title := by
  unfold retouch
  split
  · split
    · exact Or.inr ⟨_, _, rfl⟩
    · exact Or.inl rfl
  · exact Or.inl rfl

theorem titled_address (address title : String) (c : Client) : (titled address title c).address = c.address := by
  unfold titled onWindow
  split <;> rfl

theorem retouch_address (raw : RawEvent) (c : Client) : (retouch raw c).address = c.address := by
  rcases retouch_cases raw with same | ⟨address, title, same⟩
  · rw [same]
    rfl
  · rw [same]
    exact titled_address address title c

theorem retitle_eq (distinct : (cs.map (·.address)).Nodup) :
    retitle address title cs = cs.map (titled address title) := by
  induction cs with
  | nil => rfl
  | cons c rest ih =>
    obtain ⟨new, distinct⟩ := List.nodup_cons.mp distinct
    unfold retitle
    rw [List.map_cons]
    by_cases named : c.address = address
    · have others : rest.map (titled address title) = rest.map id := by
        refine List.map_congr_left fun d member => ?_
        have different : d.address ≠ address := by
          intro same
          exact new (List.mem_map.mpr ⟨d, member, same.trans named.symm⟩)
        simp [titled, onWindow, different]
      rw [if_pos named, others, List.map_id]
      simp [titled, onWindow, named]
    · rw [if_neg named, ih distinct]
      simp [titled, onWindow, named]

theorem patched_eq (distinct : (cs.map (·.address)).Nodup) :
    patched (.fromRaw raw) cs = cs.map (retouch raw) := by
  unfold patched retouch
  show (if raw.name = "windowtitlev2" then _ else cs) = _
  by_cases kind : raw.name = "windowtitlev2"
  · rw [if_pos kind, if_pos kind]
    cases (Event.fromRaw raw).field "address" with
    | none => exact (List.map_id cs).symm
    | some address =>
      cases (Event.fromRaw raw).field "title" with
      | none => exact (List.map_id cs).symm
      | some title => exact retitle_eq distinct
  · rw [if_neg kind, if_neg kind]
    exact (List.map_id cs).symm

/-- A title that is set in the end may as well be set at once. -/
theorem titled_replay (address title : String) (raws : List RawEvent) (c : Client) :
    titled address title (raws.foldl (fun c raw => retouch raw c) (titled address title c)) =
      titled address title (raws.foldl (fun c raw => retouch raw c) c) := by
  induction raws generalizing c with
  | nil =>
    by_cases named : c.address = address <;> simp [titled, onWindow, named]
  | cons raw rest ih =>
    rw [List.foldl_cons, List.foldl_cons]
    rcases retouch_cases raw with same | ⟨other, old, same⟩
    · rw [same]
      exact ih c
    · rw [same]
      by_cases named : c.address = address
      · by_cases own : address = other
        · have replaced : titled other old (titled address title c) = titled other old c := by
            simp [titled, onWindow, named, own]
          rw [replaced]
        · have away : ∀ d : Client, d.address = address → titled other old d = d := by
            intro d here
            simp [titled, onWindow, here, own]
          rw [away c named, away _ ((titled_address ..).trans named)]
          exact ih c
      · have away : titled address title c = c := by
          simp [titled, onWindow, named]
        rw [away]

end Titles

/-! ### A cached value and the events to come -/

/-- The entry once the events have been applied. -/
def follow (f : Field) (raws : List RawEvent) (c : Cached f.Value) : Cached f.Value where
  value := raws.foldl (fun v raw => patchValue (.fromRaw raw) f v) c.value
  dirty := c.dirty || marksAny raws f
  refreshedAt := c.refreshedAt

/-- Once the events have been applied, the entry is dirty or holds Hyprland's value. -/
def Tracks (f : Field) (raws : List RawEvent) (h : Hyprland) (c : Cached f.Value) : Prop :=
  (follow f raws c).dirty = false → ∃ v, (follow f raws c).value = some v ∧ live h f = some v

/-- Titles that are still to be patched in are already there. -/
def Replays (raws : List RawEvent) (cs : List Client) : Prop :=
  ∀ rest, rest <:+ raws → marksAny rest .clients = false →
    ∀ c ∈ cs, rest.foldl (fun c raw => retouch raw c) c = c

section Follow

variable {f : Field} {raws more : List RawEvent} {h h' : Hyprland} {change : Change} {cs : List Client}

theorem follow_append (c : Cached f.Value) : follow f (raws ++ more) c = follow f more (follow f raws c) := by
  unfold follow
  simp [marksAny, Bool.or_assoc]

theorem apply_follow {raw : RawEvent} {rest : List RawEvent} (inner : Inner) :
    follow f rest (applyEvent inner (.fromRaw raw) f) = follow f (raw :: rest) (inner f) := by
  unfold follow
  simp [marksAny, applyEvent, Bool.or_assoc]

theorem patches_other (other : f ≠ .clients) (raws : List RawEvent) (v : Option f.Value) :
    raws.foldl (fun v raw => patchValue (.fromRaw raw) f v) v = v := by
  induction raws generalizing v with
  | nil => rfl
  | cons raw rest ih =>
    rw [List.foldl_cons, ih]
    cases f with
    | clients => exact absurd rfl other
    | _ => rfl

theorem retouched_distinct (raw : RawEvent) (distinct : (cs.map (·.address)).Nodup) :
    ((cs.map (retouch raw)).map (·.address)).Nodup := by
  have same : (cs.map (retouch raw)).map (·.address) = cs.map (·.address) := by
    rw [List.map_map]
    exact List.map_congr_left fun c _ => retouch_address raw c
  rwa [same]

theorem patches_clients (raws : List RawEvent) (distinct : (cs.map (·.address)).Nodup) :
    raws.foldl (fun v raw => patchValue (.fromRaw raw) .clients v) (some cs) =
      some (cs.map fun c => raws.foldl (fun c raw => retouch raw c) c) := by
  induction raws generalizing cs with
  | nil => simp
  | cons raw rest ih =>
    have first : patchValue (.fromRaw raw) .clients (some cs) = some (cs.map (retouch raw)) :=
      congrArg some (patched_eq distinct)
    rw [List.foldl_cons, first, ih (retouched_distinct raw distinct), List.map_map]
    rfl

/-- A fresh answer tracks Hyprland, whatever events are still to be applied. -/
theorem tracks_answer {v : f.Value} (distinct : (h.windows.map (·.address)).Nodup)
    (replays : Replays raws h.windows) (here : live h f = some v) (now : Instant) :
    Tracks f raws h (.set now v) := by
  intro clean
  refine ⟨v, ?_, here⟩
  show raws.foldl (fun v raw => patchValue (.fromRaw raw) f v) (some v) = some v
  by_cases clients : f = .clients
  · subst clients
    obtain rfl : h.windows = v := Option.some.inj here
    rw [patches_clients raws distinct]
    have unmarked : marksAny raws .clients = false := clean
    have same : (h.windows.map fun c => raws.foldl (fun c raw => retouch raw c) c) = h.windows.map id :=
      List.map_congr_left (replays raws List.suffix_rfl unmarked)
    rw [same, List.map_id]
  · exact patches_other clients raws _

end Follow

/-! ### One change -/

section Changed

variable {f : Field} {raws more : List RawEvent} {raw : RawEvent} {h : Hyprland} {change : Change}
  {cs cs' : List Client}

theorem sublist_two {a b : RawEvent} (sub : more.Sublist [a, b]) :
    more = [] ∨ more = [a] ∨ more = [b] ∨ more = [a, b] := by
  cases sub with
  | cons _ sub =>
    cases sub with
    | cons _ sub => exact Or.inl (List.sublist_nil.mp sub)
    | cons_cons _ sub =>
      rw [List.sublist_nil.mp sub]
      exact Or.inr (Or.inr (Or.inl rfl))
  | cons_cons _ sub =>
    cases sub with
    | cons _ sub =>
      rw [List.sublist_nil.mp sub]
      exact Or.inr (Or.inl rfl)
    | cons_cons _ sub =>
      rw [List.sublist_nil.mp sub]
      exact Or.inr (Or.inr (Or.inr rfl))

theorem replays_append (replays : Replays raws cs)
    (moved : .clients ∈ marks (.fromRaw raw) ∨ cs' = cs ∧ retouch raw = id ∨
      ∃ address title, retouch raw = titled address title ∧ cs' = cs.map (titled address title)) :
    Replays (raws ++ [raw]) cs' := by
  intro rest suffix unmarked c member
  rcases List.suffix_concat_iff.mp suffix with rfl | ⟨earlier, rfl, inside⟩
  · rfl
  · have quiet : marksAny earlier .clients = false ∧ .clients ∉ marks (.fromRaw raw) := by
      simpa [marksAny] using unmarked
    rw [List.foldl_append]
    show retouch raw (earlier.foldl (fun c raw => retouch raw c) c) = c
    rcases moved with marked | ⟨rfl, same⟩ | ⟨address, title, same, rfl⟩
    · exact absurd marked quiet.2
    · rw [same]
      exact replays earlier inside quiet.1 c member
    · obtain ⟨d, here, rfl⟩ := List.mem_map.mp member
      rw [same, titled_replay, replays earlier inside quiet.1 d here]

theorem replays_marked (marked : ∀ raw ∈ more, .clients ∈ marks (.fromRaw raw)) (some : more ≠ [])
    (replays : Replays raws cs) : Replays (raws ++ more) cs' := by
  induction more generalizing raws cs with
  | nil => exact absurd rfl some
  | cons raw rest ih =>
    obtain ⟨first, marked⟩ := List.forall_mem_cons.mp marked
    have once : Replays (raws ++ [raw]) cs' := replays_append replays (Or.inl first)
    cases rest with
    | nil => exact once
    | cons next later =>
      have all := ih marked (List.cons_ne_nil _ _) once
      rwa [List.append_assoc] at all

theorem titled_twice (address title : String) (cs : List Client) :
    (cs.map (titled address title)).map (titled address title) = cs.map (titled address title) := by
  rw [List.map_map]
  exact List.map_congr_left fun c _ => titled_replay address title [] c

theorem addresses_map {g : Client → Client} (kept : ∀ c, (g c).address = c.address) (cs : List Client) :
    (cs.map g).map (·.address) = cs.map (·.address) := by
  rw [List.map_map]
  exact List.map_congr_left fun c _ => kept c

theorem onWindow_distinct {address : String} {f : Client → Client} (kept : ∀ c, (f c).address = c.address)
    (distinct : (cs.map (·.address)).Nodup) : ((cs.map (onWindow address f)).map (·.address)).Nodup := by
  rwa [addresses_map (onWindow_keeps (·.address) address kept)]

theorem focusOn_addresses (address : String) (cs : List Client) :
    (focusOn address cs).map (·.address) = cs.map (·.address) :=
  addresses_map (refocus_keeps (·.address) _ _ fun _ _ => rfl) cs

theorem distinct_after (admits : h.Admits change) (distinct : (h.windows.map (·.address)).Nodup) :
    ((h.after change).windows.map (·.address)).Nodup := by
  cases change with
  | openWindow p c =>
    show ((focusOn p.address (h.windows ++ [{ c with address := p.address }])).map (·.address)).Nodup
    rw [focusOn_addresses, List.map_append, List.nodup_append]
    refine ⟨distinct, by simp, fun a old b new same => admits ?_⟩
    obtain rfl : b = p.address := List.mem_singleton.mp new
    rwa [← same]
  | closeWindow p =>
    show ((close p.address h.windows).map (·.address)).Nodup
    unfold close
    rw [addresses_map fun c => by split <;> rfl]
    exact distinct.sublist ((List.filter_sublist).map _)
  | focusWindow p =>
    show ((h.focusing p).windows.map (·.address)).Nodup
    unfold Hyprland.focusing
    split
    · rwa [focusOn_addresses]
    · exact distinct
  | switchWorkspace | focusMonitor =>
    show ((focusOn _ h.windows).map (·.address)).Nodup
    rwa [focusOn_addresses]
  | moveWindow | setTitle | setFloating | setFullscreen | setPinned =>
    exact onWindow_distinct (fun _ => rfl) distinct
  | removeMonitor id heir =>
    show ((h.windows.map fun c => if c.monitor = id then { c with monitor := heir } else c).map (·.address)).Nodup
    rwa [addresses_map fun c => by split <;> rfl]
  | addMonitor | reload => exact distinct

theorem after_silent (silent : h.events change = []) : h.after change = h := by
  cases change with
  | focusWindow p =>
    dsimp only [Hyprland.events] at silent
    cases window : h.window p with
    | none =>
      show h.focusing p = h
      unfold Hyprland.focusing
      rw [window]
    | some c =>
      rw [window] at silent
      cases silent
  | _ => cases silent

theorem emits_none (emits : h.Emits change more) (silent : h.events change = []) : more = [] := by
  have sub := emits.1
  rw [silent] at sub
  exact List.sublist_nil.mp sub

theorem emits_reload {binds : List Bind} {areas : Screen → Area} (emits : h.Emits (.reload binds areas) more) :
    more = [⟨"configreloaded", ""⟩] := by
  rcases List.sublist_singleton.mp emits.1 with none | one
  · exact absurd none (emits.2 nofun)
  · exact one

theorem replays_changed (emits : h.Emits change more) (replays : Replays raws h.windows) :
    Replays (raws ++ more) (h.after change).windows := by
  by_cases silent : h.events change = []
  · obtain rfl := emits_none emits silent
    rw [after_silent silent, List.append_nil]
    exact replays
  · have some : more ≠ [] := emits.2 silent
    by_cases marked : .clients ∈ Marked change
    · exact replays_marked (fun raw member => marks_event (emits.1.subset member) marked) some replays
    · cases change with
      | reload binds areas =>
        obtain rfl := emits_reload emits
        exact replays_append replays (Or.inr (Or.inl ⟨rfl, rfl⟩))
      | setTitle p title =>
        have first : .clients ∈ marks (.fromRaw ⟨"windowtitle", p.hex⟩) := List.mem_singleton.mpr rfl
        have second := retouch_titleEvent p title
        rcases sublist_two emits.1 with none | rfl | rfl | rfl
        · exact absurd none some
        · exact replays_append replays (Or.inl first)
        · exact replays_append replays (Or.inr (Or.inr ⟨_, _, second, rfl⟩))
        · have once : Replays (raws ++ [⟨"windowtitle", p.hex⟩]) (h.windows.map (titled p.address title)) :=
            replays_append replays (Or.inl first)
          have twice := replays_append once (Or.inr (Or.inr ⟨_, _, second, rfl⟩))
          rw [titled_twice, List.append_assoc] at twice
          exact twice
      | _ => exact absurd (by simp [Marked]) marked

theorem tracks_changed {c : Cached f.Value} (distinct : (h.windows.map (·.address)).Nodup)
    (emits : h.Emits change more) (tracks : Tracks f raws h c)
    (seen : (follow f raws c).dirty = false → ¬ Overlooked h change f) :
    Tracks f (raws ++ more) (h.after change) c := by
  intro clean
  rw [follow_append] at clean ⊢
  obtain ⟨before, unmarked⟩ := Bool.or_eq_false_iff.mp clean
  obtain ⟨v, value, here⟩ := tracks before
  have patches : (follow f more (follow f raws c)).value =
      more.foldl (fun v raw => patchValue (.fromRaw raw) f v) (some v) := by
    rw [← value]
    rfl
  rw [patches]
  by_cases silent : h.events change = []
  · obtain rfl := emits_none emits silent
    rw [after_silent silent]
    exact ⟨v, rfl, here⟩
  · have absent : f ∉ Marked change := by
      intro marked
      rw [marksAny_emitted emits silent marked] at unmarked
      cases unmarked
    by_cases clients : f = .clients
    · subst clients
      obtain rfl : h.windows = v := Option.some.inj here
      rw [patches_clients more distinct]
      refine ⟨_, rfl, ?_⟩
      show some (h.after change).windows = some _
      congr 1
      cases change with
      | reload binds areas =>
        obtain rfl := emits_reload emits
        exact (List.map_id _).symm
      | setTitle p title =>
        have first : marksAny [⟨"windowtitle", p.hex⟩] .clients = true := rfl
        rcases sublist_two emits.1 with none | rfl | rfl | rfl
        · exact absurd none (emits.2 silent)
        · rw [first] at unmarked
          cases unmarked
        · have second := retouch_titleEvent p title
          refine List.map_congr_left fun c _ => ?_
          exact (congrFun second c).symm
        · cases unmarked
      | _ => exact absurd (by simp [Marked]) absent
    · rw [patches_other clients]
      rcases live_kept absent (seen before) here with kept | ⟨same, -⟩
      · exact ⟨v, rfl, kept⟩
      · exact absurd same clients

end Changed

/-! ### Readers, Hyprland and the cache -/

structure Watch (ι : Type) where
  now : Instant
  inner : Inner
  hypr : Hyprland
  /-- Sent and not yet applied. -/
  pending : List RawEvent
  /-- Answered and not yet stored. -/
  flight : ι → (q : Query) → Option q.Reply

variable {ι : Type} [DecidableEq ι]

namespace Watch

def Act (i : ι) : (c : Cmd) → Watch ι → Ans c → Watch ι → Prop
  | .hypr (.query q), s, x, t =>
    match x with
    | .ok reply => s.hypr.reply q = some reply ∧
        t = { s with flight := Function.update s.flight i (Function.update (s.flight i) q (some reply)) }
    | .error _ => t = s
  | .get f, s, x, t => x = s.inner.read s.now f ∧ t = s
  | .set f v, s, _, t =>
    t = { s with
      inner := Function.update s.inner f (.set s.now v)
      flight := Function.update s.flight i fun _ => none }
  | _, s, _, t => t = s

/-- Hyprland changes as admitted and sends its events, an event is applied while no query is in
flight, or time passes. -/
inductive Env (covered : Watch ι → Change → Prop) (s : Watch ι) : Watch ι → Prop where
  | changes (change : Change) (raws : List RawEvent) : s.hypr.Admits change → s.hypr.Emits change raws →
      covered s change → Env covered s { s with hypr := s.hypr.after change, pending := s.pending ++ raws }
  | applies (raw : RawEvent) (rest : List RawEvent) : s.pending = raw :: rest →
      (∀ i q, s.flight i q = none) →
      Env covered s { s with inner := applyEvent s.inner (.fromRaw raw), pending := rest }
  | waits (later : Instant) : s.now ≤ later → Env covered s { s with now := later }

def rules (covered : Watch ι → Change → Prop) : Pool.Rules Cmd Ans (Watch ι) ι := ⟨Act, Env covered⟩

/-- The cache or a reader has a value of the field that no event on its way marks. -/
def Holds (s : Watch ι) (f : Field) : Prop :=
  marksAny s.pending f = false ∧
    ((s.inner f).dirty = false ∨ ∃ i reply, s.flight i f.query = some reply)

/-- No field with a value that counts as clean is overlooked. -/
def Covered (s : Watch ι) (change : Change) : Prop := ∀ f, s.Holds f → ¬ Overlooked s.hypr change f

structure Faithful (s : Watch ι) : Prop where
  distinct : (s.hypr.windows.map (·.address)).Nodup
  cached : ∀ f, Tracks f s.pending s.hypr (s.inner f)
  answered : ∀ i f reply, s.flight i f.query = some reply → ∀ now,
    Tracks f s.pending s.hypr (.set now (f.ofReply reply))
  replays : Replays s.pending s.hypr.windows

structure Starts (s : Watch ι) : Prop where
  distinct : (s.hypr.windows.map (·.address)).Nodup
  inner : s.inner = .initial
  pending : s.pending = []
  flight : s.flight = fun _ _ => none

section Steps

variable {s t : Watch ι} {i : ι} {c : Cmd} {x : Ans c}

omit [DecidableEq ι] in
theorem Starts.faithful (start : s.Starts) : s.Faithful := by
  refine ⟨start.distinct, fun f clean => ?_, fun i f reply answered => ?_, fun rest suffix _ c _ => ?_⟩
  · rw [start.inner] at clean
    cases clean
  · rw [start.flight] at answered
    cases answered
  · rw [start.pending] at suffix
    rw [List.suffix_nil.mp suffix]
    rfl

def Answered : (c : Cmd) → Ans c → ((q : Query) → Option q.Reply) → ((q : Query) → Option q.Reply) → Prop
  | .hypr (.query q), x, _, w => ∀ reply, x = .ok reply → w q = some reply
  | _, _, _, _ => True

/-- A reader stores what it was answered. -/
def Stores : Cmd → ((q : Query) → Option q.Reply) → Prop
  | .set f v, w => ∃ reply, w f.query = some reply ∧ v = f.ofReply reply
  | _, _ => True

theorem act_answered (act : Act i c s x t) : Answered c x (s.flight i) (t.flight i) := by
  cases c with
  | hypr c =>
    cases c with
    | query q =>
      intro reply same
      subst same
      obtain ⟨-, rfl⟩ := act
      simp
    | _ => trivial
  | _ => trivial

theorem act_other {j : ι} (different : j ≠ i) (act : Act i c s x t) : t.flight j = s.flight j := by
  cases c with
  | hypr c =>
    cases c with
    | query q =>
      cases x with
      | ok reply =>
        obtain ⟨-, rfl⟩ := act
        exact Function.update_of_ne different ..
      | error e => exact congrArg (fun s : Watch ι => s.flight j) act
    | _ => exact congrArg (fun s : Watch ι => s.flight j) act
  | get f => exact congrArg (fun s : Watch ι => s.flight j) act.2
  | set f v =>
    obtain rfl : t = _ := act
    exact Function.update_of_ne different ..
  | _ => exact congrArg (fun s : Watch ι => s.flight j) act

theorem Faithful.act (before : s.Faithful) (stores : Stores c (s.flight i)) (act : Act i c s x t) :
    t.Faithful := by
  cases c with
  | hypr c =>
    cases c with
    | query q =>
      cases x with
      | ok reply =>
        obtain ⟨here, rfl⟩ := act
        refine ⟨before.distinct, before.cached, fun j f r answered now => ?_, before.replays⟩
        by_cases fresh : j = i ∧ f.query = q
        · obtain ⟨rfl, rfl⟩ := fresh
          simp only [Function.update_self, Option.some.injEq] at answered
          subst answered
          refine tracks_answer before.distinct before.replays ?_ now
          rw [live, here]
          rfl
        · refine before.answered j f r ?_ now
          by_cases own : j = i
          · subst own
            have other : f.query ≠ q := fun same => fresh ⟨rfl, same⟩
            simpa [Function.update_of_ne other] using answered
          · simpa [Function.update_of_ne own] using answered
      | error e =>
        obtain rfl : t = s := act
        exact before
    | _ =>
      obtain rfl : t = s := act
      exact before
  | get f =>
    obtain ⟨-, rfl⟩ := act
    exact before
  | set f v =>
    obtain rfl : t = _ := act
    obtain ⟨reply, answered, rfl⟩ := stores
    refine ⟨before.distinct, fun g => ?_, fun j g r later now => ?_, before.replays⟩
    · by_cases same : g = f
      · subst same
        simp only [Function.update_self]
        exact before.answered i g reply answered s.now
      · simp only [Function.update_of_ne same]
        exact before.cached g
    · refine before.answered j g r ?_ now
      by_cases own : j = i
      · subst own
        simp at later
      · simpa [Function.update_of_ne own] using later
  | _ =>
    obtain rfl : t = s := act
    exact before

omit [DecidableEq ι] in
theorem Faithful.env (before : s.Faithful) (moved : Env Covered s t) : t.Faithful := by
  cases moved with
  | changes change raws admits emits covered =>
    refine ⟨distinct_after admits before.distinct, fun f => ?_, fun i f reply answered now => ?_,
      replays_changed emits before.replays⟩
    · refine tracks_changed before.distinct emits (before.cached f) fun clean => ?_
      obtain ⟨held, unmarked⟩ := Bool.or_eq_false_iff.mp clean
      exact covered f ⟨unmarked, Or.inl held⟩
    · refine tracks_changed before.distinct emits (before.answered i f reply answered now) fun clean => ?_
      have unmarked : (false || marksAny s.pending f) = false := clean
      rw [Bool.false_or] at unmarked
      exact covered f ⟨unmarked, Or.inr ⟨i, reply, answered⟩⟩
  | applies raw rest next idle =>
    refine ⟨before.distinct, fun f => ?_, fun i f reply answered => ?_, fun later suffix => ?_⟩
    · have tracks := before.cached f
      rw [next] at tracks
      unfold Tracks at tracks ⊢
      rw [apply_follow]
      exact tracks
    · have answered : s.flight i f.query = some reply := answered
      rw [idle] at answered
      cases answered
    · refine before.replays later ?_
      rw [next]
      exact suffix.trans (List.suffix_cons raw rest)
  | waits later _ => exact ⟨before.distinct, before.cached, before.answered, before.replays⟩

omit [DecidableEq ι] in
theorem env_flight {covered : Watch ι → Change → Prop} (i : ι) (moved : Env covered s t) :
    t.flight i = s.flight i := by
  cases moved <;> rfl

end Steps

theorem stores_fetch (f : Field) (w : (q : Query) → Option q.Reply) :
    (StateCache.hypr f.fetch).wp Answered Stores (fun result w => ∀ v, result = .ok v →
      ∃ reply, w f.query = some reply ∧ v = f.ofReply reply) w := by
  cases f with
  | binds =>
    refine ⟨trivial, fun x w answered => ?_⟩
    cases x with
    | ok reply =>
      refine fun v same => ⟨reply, answered reply rfl, ?_⟩
      cases same
      rfl
    | error e => exact fun v same => (nomatch same)
  | _ => exact ⟨trivial, fun x w answered v same => ⟨v, answered v same, rfl⟩⟩

theorem stores_read (f : Field) (w : (q : Query) → Option q.Reply) :
    (read f).wp Answered Stores (fun _ _ => True) w := by
  refine Prog.wp_bind.mpr ⟨trivial, fun cached w _ => ?_⟩
  cases cached with
  | some value => trivial
  | none =>
    refine Prog.wp_bind.mpr (Prog.wp_mono ?_ (stores_fetch f w))
    intro result w stores
    cases result with
    | ok v => exact ⟨stores v rfl, fun _ _ _ => trivial⟩
    | error e => trivial

theorem stores_readAll (fields : List Field) (w : (q : Query) → Option q.Reply) :
    (readAll fields).wp Answered Stores (fun _ _ => True) w := by
  induction fields generalizing w with
  | nil => trivial
  | cons f rest ih => exact Prog.wp_bind.mpr (Prog.wp_mono (fun _ w _ => ih w) (stores_read f w))

end Watch

/-- In every run in which no change is overlooked in a field that somebody holds clean: once all
events have been applied, every clean field is what Hyprland would answer. -/
theorem clean_is_live {readers : ι → List Field} {s : Watch ι} {Q : Pool Cmd Ans Unit (Watch ι) ι}
    (start : s.Starts)
    (reach : Pool.Reach (Watch.rules Watch.Covered) ⟨s, fun i => readAll (readers i)⟩ Q)
    (applied : Q.shared.pending = []) (f : Field) (clean : (Q.shared.inner f).dirty = false) :
    (Q.shared.inner f).value = live Q.shared.hypr f := by
  have faithful : Q.shared.Faithful := by
    refine (Pool.reach_outlined (fun i (s : Watch ι) => s.flight i) Watch.Answered
      (fun _ => Watch.Stores) (fun _ _ _ => True) Watch.Faithful ?own ?other ?quiet ?act ?env start.faithful
      (fun i => Watch.stores_readAll (readers i) _) reach).1
    case own => exact fun i c s x t _ act => Watch.act_answered act
    case other => exact fun i j c s x t different act => Watch.act_other different act
    case quiet => exact fun i s t moved => Watch.env_flight i moved
    case act => exact fun i c s x t before stores act => before.act stores act
    case env => exact fun s t before moved => before.env moved
  have tracks := faithful.cached f
  rw [applied] at tracks
  obtain ⟨v, value, here⟩ := tracks (by simpa [follow, marksAny] using clean)
  have value : (Q.shared.inner f).value = some v := value
  rw [value, here]

/-! ### Two runs -/

section Runs

variable {covered : Watch ι → Change → Prop} {P : Pool Cmd Ans Unit (Watch ι) ι}

theorem watch_get (i : ι) {f : Field} {k : Option f.Value → Call Unit} (next : P.progs i = .ask (.get f) k) :
    Pool.Step (Watch.rules covered) P
      ⟨P.shared, Function.update P.progs i (k (P.shared.inner.read P.shared.now f))⟩ :=
  .act (R := Watch.rules covered) i _ next ⟨rfl, rfl⟩

theorem watch_query (i : ι) {q : Query} {k : CoreResult q.Reply → Call Unit} (reply : q.Reply)
    (next : P.progs i = .ask (.hypr (.query q)) k) (answer : P.shared.hypr.reply q = some reply) :
    Pool.Step (Watch.rules covered) P
      ⟨{ P.shared with
          flight := Function.update P.shared.flight i
            (Function.update (P.shared.flight i) q (some reply)) },
        Function.update P.progs i (k (.ok reply))⟩ := by
  refine .act (R := Watch.rules covered) i (Except.ok reply) next ?_
  exact ⟨answer, rfl⟩

theorem watch_set (i : ι) {f : Field} {v : f.Value} {k : Unit → Call Unit}
    (next : P.progs i = .ask (.set f v) k) :
    Pool.Step (Watch.rules covered) P
      ⟨{ P.shared with
          inner := Function.update P.shared.inner f (.set P.shared.now v)
          flight := Function.update P.shared.flight i fun _ => none }, Function.update P.progs i (k ())⟩ :=
  .act (R := Watch.rules covered) i () next rfl

theorem watch_change (change : Change) (raws : List RawEvent) (admits : P.shared.hypr.Admits change)
    (emits : P.shared.hypr.Emits change raws) (allowed : covered P.shared change) :
    Pool.Step (Watch.rules covered) P
      ⟨{ P.shared with
          hypr := P.shared.hypr.after change
          pending := P.shared.pending ++ raws }, P.progs⟩ :=
  .env (R := Watch.rules covered) (.changes change raws admits emits allowed)

theorem watch_apply (raw : RawEvent) (rest : List RawEvent) (next : P.shared.pending = raw :: rest)
    (idle : ∀ i q, P.shared.flight i q = none) :
    Pool.Step (Watch.rules covered) P
      ⟨{ P.shared with inner := applyEvent P.shared.inner (.fromRaw raw), pending := rest }, P.progs⟩ :=
  .env (R := Watch.rules covered) (.applies raw rest next idle)

end Runs

def oneScreen : Hyprland where
  windows := [⟨"0xa", (0, 0), (1, 1), ⟨1, "1"⟩, false, 0, "kitty", "~", "kitty", "kitty", 7, false, 0, [], 0⟩]
  spaces := [⟨1, "1", "eDP-1", 0, "0xa"⟩]
  screens := [⟨0, "eDP-1", ⟨1920, 1080, 0, 0, 1⟩, ⟨1, "1"⟩⟩]
  focused := 0
  binds := []
  version := ⟨"0.40", "c", "main"⟩

def unread : Watch Unit := ⟨0, .initial, oneScreen, [], fun _ _ => none⟩

theorem unread_starts : unread.Starts := ⟨by simp [unread, oneScreen], rfl, rfl, rfl⟩

def windowA : Pointer := ⟨"a", List.all_eq_true.mp (by decide)⟩

/-- The task patches a new title into the clean window list. -/
theorem clean_is_live_titled : ∃ Q,
    Pool.Reach (Watch.rules Watch.Covered) ⟨unread, fun _ => readAll [.clients]⟩ Q ∧
      (Q.shared.inner .clients).dirty = false ∧
      (Q.shared.inner .clients).value = live Q.shared.hypr .clients := by
  have read : Pool.Reach (Watch.rules Watch.Covered) ⟨unread, fun _ => readAll [.clients]⟩ _ :=
    ((Relation.ReflTransGen.refl.tail (watch_get () rfl)).tail
      (watch_query () oneScreen.windows rfl rfl)).tail (watch_set () rfl)
  have emits : oneScreen.Emits (.setTitle windowA "vim") [titleEvent windowA "vim"] :=
    ⟨.cons _ (.refl _), fun _ => List.cons_ne_nil _ _⟩
  have retitled := read.tail (watch_change (.setTitle windowA "vim") _ trivial emits (by
    rintro f ⟨-, held⟩ overlooked
    cases f with
    | workspaces | activeWorkspace =>
      rcases held with clean | ⟨i, reply, answered⟩
      · cases clean
      · cases answered
    | _ => exact overlooked))
  have applied := retitled.tail (watch_apply _ [] rfl fun _ _ => rfl)
  exact ⟨_, applied, by decide, clean_is_live unread_starts applied rfl .clients (by decide)⟩

/-- Switching to another workspace leaves the cached monitors clean, with the workspace shown before. -/
theorem switch_overlooked : ¬ ∀ (readers : Unit → List Field) (s : Watch Unit)
    (Q : Pool Cmd Ans Unit (Watch Unit) Unit) (f : Field), s.Starts →
    Pool.Reach (Watch.rules fun _ _ => True) ⟨s, fun i => readAll (readers i)⟩ Q →
    Q.shared.pending = [] → (Q.shared.inner f).dirty = false →
    (Q.shared.inner f).value = live Q.shared.hypr f := by
  intro always
  have read : Pool.Reach (Watch.rules fun _ _ => True) ⟨unread, fun _ => readAll [.monitors]⟩ _ :=
    ((Relation.ReflTransGen.refl.tail (watch_get () rfl)).tail
      (watch_query () (oneScreen.screens.map (monitorOf 0)) rfl rfl)).tail (watch_set () rfl)
  have emits : oneScreen.Emits (.switchWorkspace ⟨2, "2"⟩) [⟨"workspace", "2"⟩] :=
    ⟨.cons_cons _ (.cons _ (.refl _)), fun _ => List.cons_ne_nil _ _⟩
  have switched := read.tail (watch_change (.switchWorkspace ⟨2, "2"⟩) _ trivial emits trivial)
  have applied := switched.tail (watch_apply _ [] rfl fun _ _ => rfl)
  have same := always (fun _ => [.monitors]) unread _ .monitors unread_starts applied rfl (by decide)
  have shown := congrArg (Option.map (List.map Monitor.activeWorkspace)) same
  revert shown
  decide

end StateCache

end HyprPilot
