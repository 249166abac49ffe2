import HyprPilot.Core.Selector
import HyprPilot.Core.Types

/-!
# Dispatchers

One constructor for each dispatcher call that the program makes on Hyprland's control socket.
`Dispatcher.encode` is the text that follows `dispatch ` on the wire.
-/

namespace HyprPilot

inductive Direction where
  | left | right | up | down
  deriving DecidableEq

def Direction.asLetter : Direction → String
  | .left => "l"
  | .right => "r"
  | .up => "u"
  | .down => "d"

inductive FullscreenMode where
  | maximize | fullscreen
  deriving DecidableEq

def FullscreenMode.code : FullscreenMode → Nat
  | .maximize => 0
  | .fullscreen => 1

inductive Dispatcher where
  | focusWindow (sel : WindowSelector)
  | cycleNext
  | cyclePrev
  | focusMonitor (nameOrDir : String)
  | killActive
  | closeWindow (sel : WindowSelector)
  | exec (command : String)
  | switchWorkspace (ws : WorkspaceRef)
  | moveActiveToWorkspace (ws : WorkspaceRef)
  | moveActiveToWorkspaceSilent (ws : WorkspaceRef)
  | moveWorkspaceToMonitor (monitor : String)
  | toggleFloating
  | setFullscreen (mode : FullscreenMode)
  | centerActive
  | pinActive
  | moveActive (dir : Direction)
  | resizeActive (dx dy : Int)
  | swapActive (dir : Direction)
  | moveWindowPixel (sel : WindowSelector) (x y : Int)
  | resizeWindowPixel (sel : WindowSelector) (width height : Int)
  | pinWindow (sel : WindowSelector)
  | toggleFloatingWindow (sel : WindowSelector)
  | setFullscreenState (sel : WindowSelector) (internal external : Int)
  /-- Built by `apply_diff` itself: a silent move of a named window. -/
  | moveToWorkspaceSilent (ws : WorkspaceRef) (sel : WindowSelector)
  /-- `sendshortcut`, built by the daemon's `input_shortcut`. -/
  | sendShortcut (mods key : String) (sel : WindowSelector)
  | bindAction (action : String)
  deriving DecidableEq

namespace Dispatcher

def encode : Dispatcher → String
  | .focusWindow sel => "focuswindow " ++ sel.encode
  | .cycleNext => "cyclenext"
  | .cyclePrev => "cyclenext prev"
  | .focusMonitor nameOrDir => "focusmonitor " ++ nameOrDir
  | .killActive => "killactive"
  | .closeWindow sel => "closewindow " ++ sel.encode
  | .exec command => "exec " ++ command
  | .switchWorkspace ws => "workspace " ++ ws.encode
  | .moveActiveToWorkspace ws => "movetoworkspace " ++ ws.encode
  | .moveActiveToWorkspaceSilent ws => "movetoworkspacesilent " ++ ws.encode
  | .moveWorkspaceToMonitor monitor => "movecurrentworkspacetomonitor " ++ monitor
  | .toggleFloating => "togglefloating"
  | .setFullscreen mode => "fullscreen " ++ toString mode.code
  | .centerActive => "centerwindow"
  | .pinActive => "pin"
  | .moveActive dir => "movewindow " ++ dir.asLetter
  | .resizeActive dx dy => "resizeactive " ++ toString dx ++ " " ++ toString dy
  | .swapActive dir => "swapwindow " ++ dir.asLetter
  | .moveWindowPixel sel x y =>
    "movewindowpixel exact " ++ toString x ++ " " ++ toString y ++ "," ++ sel.encode
  | .resizeWindowPixel sel width height =>
    "resizewindowpixel exact " ++ toString width ++ " " ++ toString height ++ "," ++ sel.encode
  | .pinWindow sel => "pin " ++ sel.encode
  | .toggleFloatingWindow sel => "togglefloating " ++ sel.encode
  | .setFullscreenState sel internal external =>
    "fullscreenstate " ++ toString internal ++ " " ++ toString external ++ "," ++ sel.encode
  | .moveToWorkspaceSilent ws sel => "movetoworkspacesilent " ++ ws.encode ++ "," ++ sel.encode
  | .sendShortcut mods key sel => "sendshortcut " ++ mods ++ "," ++ key ++ "," ++ sel.encode
  | .bindAction action => action

end Dispatcher

end HyprPilot
