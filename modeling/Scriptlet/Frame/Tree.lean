import Scriptlet.Frame

/-!
# Scriptlet — trees of frames

Several chains that share frames: every frame but the main one hangs on the frame of its caller,
and a frame may have any number of callees. Frames are known by their numbers, the main frame being
number zero. Reading and writing from a frame work on the chain from that frame to the main one.
-/

namespace Scriptlet

/-- A frame in a tree. -/
structure FrameNode where
  /-- The numbers of the frame's callers, the nearest first and the main frame last. -/
  callers : List Nat
  frame : Frame

/-- Frames that hang together, by number. -/
structure FrameTree where
  nodes : List FrameNode

namespace FrameTree

/-- The tree that has only the main frame. -/
def main : FrameTree := ⟨[⟨[], .empty⟩]⟩

/-- The frame with the given number. -/
def frame? (tree : FrameTree) (i : Nat) : Option Frame :=
  (tree.nodes[i]?).map (·.frame)

/-- The numbers of the frames from the given one to the main frame. -/
def path (tree : FrameTree) (i : Nat) : List Nat :=
  i :: ((tree.nodes[i]?).map (·.callers)).getD []

/-- The chain of frames from the given one to the main frame. -/
def chain (tree : FrameTree) (i : Nat) : Chain :=
  ⟨(tree.path i).dropLast.map fun j => (tree.frame? j).getD .empty, (tree.frame? 0).getD .empty⟩

/-- Replaces the frame with the given number. -/
def store (tree : FrameTree) (i : Nat) (frame : Frame) : FrameTree :=
  ⟨tree.nodes.modify i ({ · with frame })⟩

/-- Replaces the frames from the given one to the main frame. -/
def storeChain (tree : FrameTree) (i : Nat) (chain : Chain) : FrameTree :=
  ((tree.path i).zip chain.frames).foldl (fun tree (j, frame) => tree.store j frame) tree

/-- Adds a frame called from the given one. Its number is the old number of frames. -/
def call (tree : FrameTree) (caller : Nat) : FrameTree :=
  ⟨tree.nodes ++ [⟨tree.path caller, .empty⟩]⟩

/-- Binds a variable in the given frame. -/
def define (tree : FrameTree) (i : Nat) (name : String) (value : Value) : FrameTree :=
  tree.store i (((tree.frame? i).getD .empty).define name value)

/-- The value of a variable as seen from the given frame. -/
def get? (tree : FrameTree) (i : Nat) (name : String) : Option Value :=
  (tree.chain i).get? name

/-- Reads a variable from the given frame, on the given line. -/
def read (tree : FrameTree) (i : Nat) (name : String) (line : Nat) : Except Fault Value :=
  demandVariable name line (tree.get? i name)

/-- Writes a variable as the given frame does. -/
def set (tree : FrameTree) (i : Nat) (name : String) (value : Value) : FrameTree :=
  tree.storeChain i ((tree.chain i).set name value)

/-- Adds a function to the given frame's own functions. -/
def defineFunction (tree : FrameTree) (i : Nat) (f : FunctionDef) : Except Fault FrameTree := do
  let frame ← ((tree.frame? i).getD .empty).defineFunction f
  return tree.store i frame

/-- The given frame's own functions. -/
def functions (tree : FrameTree) (i : Nat) : Table FunctionDef :=
  ((tree.frame? i).getD .empty).functions

end FrameTree

end Scriptlet
