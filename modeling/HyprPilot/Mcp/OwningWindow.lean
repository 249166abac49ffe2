import HyprPilot.A11y.PreOrder
import HyprPilot.Mcp.MatchChoice

/-!
# Clicks on elements of an application with several windows

The accessibility root of an application has the subtree of each of its windows below it, and the
boxes in a subtree are measured from the corner of its window. The search flattens the subtrees into
one list. The click is anchored to a window that the list of clients and the focus pick for the
process, whichever subtree the chosen element comes from.
-/

namespace HyprPilot
open Interact Machine

structure AppWindow (ν : Type) where
  client : Client
  frame : ν

structure Application (ν : Type) where
  service : Service ν
  root : ν
  pid : Int
  windows : List (AppWindow ν)
  under : service.children root = windows.map (·.frame)
  ours : ∀ w ∈ windows, w.client.pid = pid

namespace Application

variable {ν : Type} (app : Application ν)

/-- The pre-order of the whole tree, each node with the window whose subtree it is in. -/
def visits (maxDepth : Nat) : List (Option Client × ν × Nat) :=
  if app.service.reads app.root then
    (none, app.root, 0) :: app.windows.flatMap fun w =>
      (Graph.unfolding app.service.reads app.service.children maxDepth 1 w.frame).map
        fun v => (some w.client, v)
  else []

/-- The clickable elements that a search finds, each with its window. -/
def candidates (lower : String → String) (op : A11yClickOp) : List (Option Client × Element) :=
  let opts := Daemon.walkOpts op.maxNodes
  (((app.visits opts.maxDepth).take opts.maxNodes).map
    fun v => (v.1, app.service.element v.2.1 v.2.2)).filter
      fun c => elementMatches lower c.2 op.query op.role && c.2.isClickable

/-- The operation chooses the element, and its window is the owner. -/
structure Selects (lower : String → String) (op : A11yClickOp) (owner : Client) (e : Element) :
    Prop where
  located : (app.candidates lower op)[op.matchIndex]? = some (some owner, e)
  unique : op.requireUnique = true → op.matchIndex = 0 → (app.candidates lower op).length ≤ 1

variable {app}

theorem visits_nodes (maxDepth : Nat) :
    (app.visits maxDepth).map Prod.snd = app.service.visits maxDepth app.root := by
  rw [visits, Service.visits]
  cases read : app.service.reads app.root with
  | false =>
    rw [Graph.unfolding_dropped read]
    rfl
  | true =>
    rw [Graph.unfolding_kept read, app.under, if_pos rfl, List.map_cons, List.map_flatMap,
      List.flatMap_map]
    simp

theorem shallow_walkOpts (maxNodes : Option Nat) :
    (Daemon.walkOpts maxNodes).maxDepth < 4294967295 := by
  have default : (4294967295 : Nat) > 50 := by decide
  unfold Daemon.walkOpts
  split
  · exact default
  · exact default

/-- The candidates are the clickable elements of the search, in its order. -/
theorem candidates_elements (lower : String → String) (op : A11yClickOp) :
    (app.candidates lower op).map Prod.snd =
      (filterElements lower (app.service.walk app.root (Daemon.walkOpts op.maxNodes)) op.query
        op.role).filter Element.isClickable := by
  rw [Service.walk_bounded app.root (Or.inl (shallow_walkOpts op.maxNodes)), Service.listing,
    Service.shown, ← visits_nodes, candidates, filterElements, List.filter_filter, ← List.map_take,
    ← List.map_take, List.map_map, List.filter_map, List.filter_map, List.map_map]
  simp only [Function.comp_def, Bool.and_comm]

theorem owner_window {lower : String → String} {op : A11yClickOp} {owner : Client} {e : Element}
    (member : (some owner, e) ∈ app.candidates lower op) : ∃ w ∈ app.windows, w.client = owner := by
  have listed := List.mem_of_mem_filter member
  obtain ⟨v, taken, equal⟩ := List.mem_map.mp listed
  have visited := List.mem_of_mem_take taken
  have window : v.1 = some owner := congrArg Prod.fst equal
  rw [visits] at visited
  split at visited
  · rcases List.mem_cons.mp visited with rfl | below
    · cases window
    · obtain ⟨w, member, inside⟩ := List.mem_flatMap.mp below
      obtain ⟨u, _, rfl⟩ := List.mem_map.mp inside
      exact ⟨w, member, Option.some.inj window⟩
  · cases visited

end Application

namespace Mcp

/-- What the daemon can show while one element click is handled: the application, and the list of
clients with the windows of the application in it. -/
structure Desk (ν : Type) where
  app : Application ν
  lower : String → String
  clients : List Client
  listed : ∀ w ∈ app.windows, w.client ∈ clients
  typed : ∀ c ∈ clients, InI32 c.at_.1 ∧ InI32 c.at_.2

variable {ν : Type} {id : Json}

/-- The focused window of the process, or its first one where none has the focus, has the origin. -/
def Anchored (clients : List Client) (pid : Int) (origin : Int × Int) : Prop :=
  (∃ c, clients.find? (fun c => c.pid = pid ∧ c.focusHistoryId = 0) = some c ∧ c.at_ = origin) ∨
    (∀ c ∈ clients, c.pid = pid → c.focusHistoryId ≠ 0) ∧
      ∃ c, clients.find? (fun c => c.pid = pid) = some c ∧ c.at_ = origin

theorem pickWindowForPid_eq (clients : List Client) (pid : Int) :
    pickWindowForPid clients pid =
      (clients.find? fun c => c.pid = pid ∧ c.focusHistoryId = 0).or
        (clients.find? fun c => c.pid = pid) := by
  rw [pickWindowForPid, List.find?_filter, List.head?_filter]
  simp only [Bool.decide_and, Bool.decide_eq_true]

theorem anchored_iff {clients : List Client} {pid : Int} {picked : Client}
    (picks : pickWindowForPid clients pid = some picked) (origin : Int × Int) :
    Anchored clients pid origin ↔ picked.at_ = origin := by
  rw [pickWindowForPid_eq] at picks
  unfold Anchored
  cases focused : clients.find? fun c => c.pid = pid ∧ c.focusHistoryId = 0 with
  | some c =>
    rw [focused, Option.some_or] at picks
    obtain rfl := Option.some.inj picks
    have found := List.find?_some focused
    simp only [decide_eq_true_eq] at found
    constructor
    · rintro (⟨c', equal, origin⟩ | ⟨unfocused, _⟩)
      · exact Option.some.inj equal ▸ origin
      · exact absurd found.2 (unfocused c (List.mem_of_find?_eq_some focused) found.1)
    · exact fun origin => Or.inl ⟨c, rfl, origin⟩
  | none =>
    rw [focused, Option.none_or] at picks
    have unfocused : ∀ c ∈ clients, c.pid = pid → c.focusHistoryId ≠ 0 := by
      simpa using focused
    constructor
    · rintro (⟨c, equal, _⟩ | ⟨_, c, equal, origin⟩)
      · cases equal
      · rw [picks] at equal
        exact Option.some.inj equal ▸ origin
    · exact fun origin => Or.inr ⟨unfocused, picked, picks, origin⟩

theorem pick_exists {clients : List Client} {owner : Client} (listed : owner ∈ clients) :
    ∃ picked ∈ clients, picked.pid = owner.pid ∧
      pickWindowForPid clients owner.pid = some picked := by
  have some_picked : (pickWindowForPid clients owner.pid).isSome := by
    rw [pickWindowForPid_eq, Option.isSome_or, Bool.or_eq_true]
    right
    rw [List.find?_isSome]
    exact ⟨owner, listed, by simp⟩
  obtain ⟨picked, picks⟩ := Option.isSome_iff_exists.mp some_picked
  have found := picks
  rw [pickWindowForPid_eq, Option.or_eq_some_iff] at found
  rcases found with focused | ⟨_, first⟩
  · have here := List.find?_some focused
    simp only [decide_eq_true_eq] at here
    exact ⟨picked, List.mem_of_find?_eq_some focused, here.1, picks⟩
  · have here := List.find?_some first
    simp only [decide_eq_true_eq] at here
    exact ⟨picked, List.mem_of_find?_eq_some first, here, picks⟩

/-- A window that no other window of its process is away from, such as the only one, is the anchor. -/
theorem anchored_alone {clients : List Client} {owner : Client} (listed : owner ∈ clients)
    (alone : ∀ c ∈ clients, c.pid = owner.pid → c.at_ = owner.at_) :
    Anchored clients owner.pid owner.at_ := by
  obtain ⟨picked, present, ours, picks⟩ := pick_exists listed
  exact (anchored_iff picks owner.at_).mpr (alone picked present ours)

/-! ### The sum of an origin and a centre -/

/-- The sum of an origin and a centre is right exactly when it is the right origin and an `i32`. -/
theorem anchored_axis {anchor origin : Int} (typed : InI32 anchor) (typed' : InI32 origin)
    (corner extent : Int) :
    wrap32 (anchor + wrap32 (corner + extent.tdiv 2)) = origin + corner + extent.tdiv 2 ↔
      anchor = origin ∧ InI32 (origin + corner + extent.tdiv 2) := by
  generalize extent.tdiv 2 = half
  unfold wrap32 InI32 at *
  omega

/-! ### The click -/

def Desk.found (desk : Desk ν) (query : String) (role : Option String) (maxNodes : Option Nat) :
    List Element :=
  filterElements desk.lower (desk.app.service.walk desk.app.root (Daemon.walkOpts maxNodes)) query role

/-- The elements are what the search of the process's application gives. -/
theorem Desk.find_found {desk : Desk ν} {a11y : A11y ν} (same : a11y.toService = desk.app.service)
    (located : a11y.findApp desk.app.pid = .ok desk.app.root) (query : String) (role : Option String)
    (maxNodes : Option Nat) :
    a11y.find desk.lower desk.app.pid query role (Daemon.walkOpts maxNodes) =
      .ok (desk.found query role maxNodes) := by
  rw [A11y.find, A11y.snapshotApp, located, Desk.found, ← same]
  rfl

/-- Every command may fail; a search and a list of clients that succeed show the desk. -/
def Desk.Shows (desk : Desk ν) : (c : Cmd) → Ans c → Prop
  | .daemon (.a11yFind _ query role maxNodes), answer =>
    ∀ pid q elements, answer = .ok (.elements pid q elements) →
      pid = desk.app.pid ∧ elements = desk.found query role maxNodes
  | .daemon .queryClients, answer => ∀ clients, answer = .ok (.clients clients) → clients = desk.clients
  | _, _ => True

theorem Desk.shows_some (desk : Desk ν) (c : Cmd) : ∃ answer, desk.Shows c answer := by
  cases c with
  | daemon request =>
    refine ⟨.error .closed, ?_⟩
    cases request with
    | a11yFind => exact fun _ _ _ equal => by cases equal
    | queryClients => exact fun _ equal => by cases equal
    | _ => trivial
  | dropDaemon => exact ⟨(), trivial⟩
  | grimDetect => exact ⟨.ok (), trivial⟩
  | tesseractDetect => exact ⟨.ok (), trivial⟩
  | grimFull => exact ⟨.ok [], trivial⟩
  | grimRegion => exact ⟨.ok [], trivial⟩
  | extractText => exact ⟨.ok "", trivial⟩
  | extractWords => exact ⟨.ok [], trivial⟩

def ElementShownAt (point : Int × Int) (response : JsonRpcResponse) : Prop :=
  ∀ op chosen total window x y,
    response = .shown response.id (.elementPreview op chosen total window x y) → (x, y) = point

/-- In every run over the desk, each pointer motion goes to the point and a preview prints it. -/
def Sends (id : Json) (op : A11yClickOp) (desk : Desk ν) (point : Int × Int) : Prop :=
  ∀ run response, Prog.Run (handleA11yClick id op) run response →
    (∀ e ∈ run, desk.Shows e.1 e.2) → (∀ e ∈ run, MovesTo point e.1) ∧ ElementShownAt point response

abbrev Sent (desk : Desk ν) (point : Int × Int) (p : Session JsonRpcResponse) : Prop :=
  p.Meets desk.Shows (MovesTo point) (ElementShownAt point)

theorem sends_iff {op : A11yClickOp} {desk : Desk ν} {point : Int × Int} :
    Sends id op desk point ↔ Sent desk point (handleA11yClick id op) :=
  (Prog.meets_iff_runs desk.shows_some).symm

theorem elementShownAt_toolError (point : Int × Int) (id : Json) (code : ErrorCode) (message : String) :
    ElementShownAt point (toolError id code message) := by
  intro op chosen total window x y preview
  cases code <;> cases preview

section Stages

variable {desk : Desk ν} {point : Int × Int}

/-- A request and what follows it; a failure is a response without a preview. -/
theorem sent_asked {request : Request} {next : Except JsonRpcResponse Reply → Session JsonRpcResponse}
    (failed : ∀ response, next (.error response) = .ret response) :
    Sent desk point (asked id request >>= next) ↔ MovesTo point (.daemon request) ∧
      ∀ value, desk.Shows (.daemon request) (.ok value) → Sent desk point (next (.ok value)) := by
  rw [Sent, Prog.meets_bind]
  constructor
  · intro met
    have asking := Prog.meets_ask.mp met
    exact ⟨asking.1, fun value shown => asking.2 (.ok value) shown⟩
  · rintro ⟨moves, answered⟩
    apply meets_request moves (movesTo_dropDaemon point) _ answered
    intro code message
    rw [failed]
    exact elementShownAt_toolError point id code message

theorem sent_toolError (code : ErrorCode) (message : String) :
    Sent desk point (.ret (toolError id code message)) :=
  elementShownAt_toolError point id code message

theorem sent_clickAt {x y : Int} {button : MouseButton} {chosen : Element} {total : Nat} :
    Sent desk point (clickAt id x y button (.elementApplied chosen total x y)) ↔ (x, y) = point := by
  rw [clickAt, sent_asked (fun _ => rfl)]
  constructor
  · exact fun sent => sent.1 x y true rfl
  · rintro rfl
    refine ⟨fun x y absolute equal => by cases equal; rfl, fun value _ => ?_⟩
    refine (sent_asked fun _ => rfl).mpr ⟨fun _ _ _ equal => (nomatch equal), fun _ _ => ?_⟩
    exact fun _ _ _ _ _ _ preview => nomatch preview

theorem sent_elementChosen {op : A11yClickOp} {total : Nat} {chosen : Element} {picked : Client}
    (picks : pickWindowForPid desk.clients desk.app.pid = some picked) :
    Sent desk point (elementChosen id op (some desk.app.pid) total chosen) ↔
      (wrap32 (picked.at_.1 + chosen.center.1), wrap32 (picked.at_.2 + chosen.center.2)) = point := by
  have clicks : Sent desk point (if op.dryRun then pure (.shown id (.elementPreview op chosen total picked
      (wrap32 (picked.at_.1 + chosen.center.1)) (wrap32 (picked.at_.2 + chosen.center.2))))
      else clickAt id (wrap32 (picked.at_.1 + chosen.center.1))
        (wrap32 (picked.at_.2 + chosen.center.2)) op.button (.elementApplied chosen total
          (wrap32 (picked.at_.1 + chosen.center.1)) (wrap32 (picked.at_.2 + chosen.center.2)))) ↔
      (wrap32 (picked.at_.1 + chosen.center.1), wrap32 (picked.at_.2 + chosen.center.2)) = point := by
    by_cases dry : op.dryRun
    · rw [if_pos dry]
      constructor
      · exact fun shown => shown _ _ _ _ _ _ rfl
      · intro here op' chosen' total' window x y preview
        cases preview
        exact here
    · rw [if_neg dry]
      exact sent_clickAt
  rw [elementChosen, sent_asked (fun _ => rfl)]
  constructor
  · intro sent
    have shown := sent.2 (.clients desk.clients) fun _ equal =>
      (Reply.clients.inj (Except.ok.inj equal)).symm
    simp only [picks] at shown
    exact clicks.mp shown
  · intro here
    refine ⟨fun _ _ _ equal => (nomatch equal), fun value shown => ?_⟩
    cases value with
    | clients clients =>
      obtain rfl := shown clients rfl
      simp only [picks]
      exact clicks.mpr here
    | _ => exact sent_toolError _ _

/-- With the elements of the application the handler goes on with the chosen one. -/
theorem elementsFound_selected {op : A11yClickOp} {owner : Client} {e : Element}
    (selects : desk.app.Selects desk.lower op owner e) (pid : Option Int) :
    elementsFound id op pid ((desk.found op.query op.role op.maxNodes).filter Element.isClickable) =
      elementChosen id op pid ((desk.app.candidates desk.lower op).map Prod.snd).length e := by
  rw [Desk.found, ← Application.candidates_elements]
  apply choose_at
  · rw [List.getElem?_map, selects.located]
    rfl
  · rw [List.length_map]
    exact selects.unique

/-- The whole handler sends the chosen element's centre from the picked window's corner. -/
theorem sent_handleA11yClick {op : A11yClickOp} {owner picked : Client} {e : Element}
    (selects : desk.app.Selects desk.lower op owner e)
    (picks : pickWindowForPid desk.clients desk.app.pid = some picked) :
    Sent desk point (handleA11yClick id op) ↔
      (wrap32 (picked.at_.1 + e.center.1), wrap32 (picked.at_.2 + e.center.2)) = point := by
  rw [(staged_a11yClick op).staged, elementCandidates, Prog.bind_assoc, sent_asked (fun _ => rfl)]
  constructor
  · intro sent
    have chosen : Sent desk point (elementsFound id op (some desk.app.pid)
        ((desk.found op.query op.role op.maxNodes).filter Element.isClickable)) :=
      sent.2 (.elements desk.app.pid (some op.query) (desk.found op.query op.role op.maxNodes))
        fun pid q elements equal => by cases equal; exact ⟨rfl, rfl⟩
    rw [elementsFound_selected selects] at chosen
    exact (sent_elementChosen picks).mp chosen
  · intro here
    refine ⟨fun _ _ _ equal => (nomatch equal), fun value shown => ?_⟩
    cases value with
    | elements pid q elements =>
      obtain ⟨rfl, rfl⟩ := shown pid q elements rfl
      show Sent desk point (elementsFound id op (some desk.app.pid)
        ((desk.found op.query op.role op.maxNodes).filter Element.isClickable))
      rw [elementsFound_selected selects]
      exact (sent_elementChosen picks).mpr here
    | _ => exact sent_toolError _ _

end Stages

/-- The point of an element: its centre from the corner of its window. -/
def pointOf (owner : Client) (e : Element) : Int × Int :=
  (owner.at_.1 + e.x + e.w.tdiv 2, owner.at_.2 + e.y + e.h.tdiv 2)

/-- The click goes to the element exactly when the window that anchors it has the corner of the
element's window, and the point can be written in two `i32`s. -/
theorem elementClick_inside_iff {desk : Desk ν} {op : A11yClickOp} {owner : Client} {e : Element}
    (selects : desk.app.Selects desk.lower op owner e) :
    Sends id op desk (pointOf owner e) ↔ Anchored desk.clients desk.app.pid owner.at_ ∧
      InI32 (pointOf owner e).1 ∧ InI32 (pointOf owner e).2 := by
  obtain ⟨w, member, rfl⟩ := Application.owner_window (List.mem_of_getElem? selects.located)
  have listed := desk.listed w member
  obtain ⟨picked, present, _, picks⟩ := pick_exists listed
  rw [desk.app.ours w member] at picks
  rw [sends_iff, sent_handleA11yClick selects picks, anchored_iff picks, Prod.ext_iff, Prod.ext_iff]
  have here := desk.typed picked present
  have there := desk.typed w.client listed
  have x := anchored_axis here.1 there.1 e.x e.w
  have y := anchored_axis here.2 there.2 e.y e.h
  constructor
  · rintro ⟨sameX, sameY⟩
    have first := x.mp sameX
    have second := y.mp sameY
    exact ⟨⟨first.1, second.1⟩, first.2, second.2⟩
  · rintro ⟨⟨sameX, sameY⟩, fitsX, fitsY⟩
    exact ⟨x.mpr ⟨sameX, fitsX⟩, y.mpr ⟨sameY, fitsY⟩⟩

/-! ### Two windows of one process -/

def windowAt (origin : Int × Int) (focusHistoryId : Int) : Client where
  address := "0x1"
  at_ := origin
  size := (600, 400)
  workspace := ⟨1, "1"⟩
  floating := false
  monitor := 0
  className := "editor"
  title := ""
  initialClass := "editor"
  initialTitle := ""
  pid := 7
  pinned := false
  fullscreen := 0
  tags := []
  focusHistoryId := focusHistoryId

def behind : Client := windowAt (0, 0) 1

def front : Client := windowAt (800, 400) 0

/-- The frames 1 and 2 below the root, with the button "Save" in the one and "Close" in the other. -/
def twoFrames : Service Nat where
  isNull _ := false
  path _ := "/"
  asAccessibleProxy _ := true
  getRole _ := none
  name n := if n = 3 then some "Save" else if n = 4 then some "Close" else none
  proxies _ := true
  component _ := true
  getExtents n := if n = 3 then some (10, 20, 80, 24) else if n = 4 then some (30, 20, 80, 24) else none
  text _ := false
  characterCount _ := none
  getText _ _ _ := none
  getChildren n := .ok (if n = 0 then [1, 2] else if n = 1 then [3] else if n = 2 then [4] else [])

def editor : Application Nat where
  service := twoFrames
  root := 0
  pid := 7
  windows := [⟨behind, 1⟩, ⟨front, 2⟩]
  under := rfl
  ours := by simp [behind, front, windowAt]

def editorDesk : Desk Nat where
  app := editor
  lower := Text.asciiLower
  clients := [behind, front]
  listed := by simp [editor]
  typed := by simp [behind, front, windowAt, InI32]

def buttonOf (n : Nat) : Element := twoFrames.element n 2

def namedElement (query : String) : A11yClickOp := { pinnedElement 0 with query := query }

theorem selects_save :
    editorDesk.app.Selects editorDesk.lower (namedElement "save") behind (buttonOf 3) where
  located := by rfl
  unique _ _ := by decide

theorem selects_close :
    editorDesk.app.Selects editorDesk.lower (namedElement "close") front (buttonOf 4) where
  located := by rfl
  unique _ _ := by decide

/-- The button of the focused window is clicked. -/
theorem close_clicked : Sends .null (namedElement "close") editorDesk (870, 432) := by
  refine (elementClick_inside_iff selects_close).mpr ⟨Or.inl ⟨front, rfl, rfl⟩, ?_⟩
  decide

/-- The click on the button of the window behind goes into the focused one. -/
theorem save_missed :
    pointOf behind (buttonOf 3) = (50, 32) ∧
      Sends .null (namedElement "save") editorDesk (850, 432) ∧
      ¬Sends .null (namedElement "save") editorDesk (50, 32) := by
  have picks : pickWindowForPid editorDesk.clients editorDesk.app.pid = some front := rfl
  refine ⟨by decide, ?_, ?_⟩
  · exact sends_iff.mpr ((sent_handleA11yClick selects_save picks).mpr (by decide))
  · intro sends
    have point := (sent_handleA11yClick selects_save picks).mp (sends_iff.mp sends)
    revert point
    decide

end Mcp

end HyprPilot
