import Scriptlet.Frame.Tree
import Scriptlet.Proofs.Scopes

/-!
# Scriptlet — writes in a tree of frames

In a tree of frames a variable is seen from many frames, and hidden from others
by a frame between. A write goes to one frame, whatever the tree: the nearest
on the way to the main frame that binds the variable, or the main frame if none
does. Whoever finds the variable in that frame sees the new value, and nobody
else sees anything new.

* `FrameTree.Built` — the trees that come about by calls, definitions and
  writes;
* `FrameTree.Built.rooted` — in such a tree, every frame has a way to the main
  frame, on which no frame comes twice;
* `FrameTree.Rooted.set_eq_define` — a write is a definition in one frame;
* `FrameTree.get?_define` — who sees a definition;
* `FrameTree.set_writes_one_frame` — the main result.
-/

namespace Scriptlet

-- ---------------------------------------------------------------------------
-- A write along a list of frames
-- ---------------------------------------------------------------------------

/-- Frames by number, after a variable is bound in the frame with the number
`w`. -/
def definedAt (frames : Nat → Frame) (w : Nat) (name : String) (value : Value) (i : Nat) : Frame :=
  if i = w then (frames w).define name value else frames i

theorem definedAt_of_ne (frames : Nat → Frame) {w i : Nat} (h : i ≠ w) (name : String)
    (value : Value) : definedAt frames w name value i = frames i :=
  if_neg h

/-- On a way around that frame, all frames are as they were. -/
theorem map_definedAt_of_notMem (frames : Nat → Frame) {w : Nat} {path : List Nat}
    (h : w ∉ path) (name : String) (value : Value) :
    path.map (definedAt frames w name value) = path.map frames := by
  refine List.map_congr_left fun i hi => definedAt_of_ne frames ?_ name value
  rintro rfl
  exact h hi

namespace Chain

/-- A write to the first frame that binds the variable, for frames known by their
numbers. -/
theorem setFirst?_map (frames : Nat → Frame) (name : String) (value : Value) {path : List Nat}
    (hPath : path.Nodup) :
    setFirst? name value (path.map frames) =
      (path.find? fun i => (frames i).binds name).map fun w =>
        path.map (definedAt frames w name value) := by
  -- frame by frame, up to the first that binds the variable
  induction path with
  | nil => rfl
  | cons i path ih =>
    obtain ⟨hFirst, hRest⟩ := List.nodup_cons.mp hPath
    rw [List.map_cons, setFirst?, List.find?_cons]
    cases hBinds : (frames i).binds name with
    | true =>
      rw [if_pos rfl, Option.map_some, List.map_cons, map_definedAt_of_notMem frames hFirst,
        definedAt, if_pos rfl]
    | false =>
      rw [if_neg Bool.false_ne_true, ih hRest, Option.map_map]
      refine Option.map_congr fun w hw => ?_
      -- no frame comes twice, so that the first is not the one written to
      have hNe : i ≠ w := by
        rintro rfl
        exact hFirst (List.mem_of_find?_eq_some hw)
      rw [Function.comp, List.map_cons, definedAt_of_ne frames hNe]

end Chain

namespace FrameTree

-- ---------------------------------------------------------------------------
-- Frames by number
-- ---------------------------------------------------------------------------

/-- The number of frames. -/
def size (tree : FrameTree) : Nat :=
  tree.nodes.length

/-- The frame with the given number, and an empty one where there is none. -/
def frameAt (tree : FrameTree) (i : Nat) : Frame :=
  (tree.frame? i).getD .empty

/-- Whether the frame with the given number itself binds the variable. -/
def binds (tree : FrameTree) (i : Nat) (name : String) : Bool :=
  (tree.frameAt i).binds name

/-- The nearest frame that binds the variable, on the way from the given frame to
the main one. -/
def owner? (tree : FrameTree) (i : Nat) (name : String) : Option Nat :=
  (tree.path i).find? (tree.binds · name)

/-- The frame that a write goes to: the nearest that binds the variable, or the
main frame if there is none. -/
def target (tree : FrameTree) (i : Nat) (name : String) : Nat :=
  (tree.owner? i name).getD 0

variable {tree : FrameTree} {i j w : Nat} {name : String} {value : Value}

/-- Where there is a frame, it is the one with that number. -/
theorem frame?_of_lt (h : i < tree.size) : tree.frame? i = some (tree.frameAt i) := by
  unfold frameAt frame?
  rw [List.getElem?_eq_getElem h]
  rfl

theorem size_store (tree : FrameTree) (i : Nat) (frame : Frame) :
    (tree.store i frame).size = tree.size :=
  List.length_modify _ _ _

/-- To put a frame in its place leaves all ways as they are. -/
theorem path_store (tree : FrameTree) (i : Nat) (frame : Frame) (j : Nat) :
    (tree.store i frame).path j = tree.path j := by
  unfold path store
  rw [List.getElem?_modify]
  cases tree.nodes[j]? with
  | none => rfl
  | some node => by_cases h : i = j <;> simp [h]

/-- A frame that is put in its place is the only one to change. -/
theorem frame?_store (tree : FrameTree) (i : Nat) (frame : Frame) (j : Nat) :
    (tree.store i frame).frame? j =
      (tree.frame? j).map fun old => if j = i then frame else old := by
  unfold frame? store
  rw [List.getElem?_modify]
  cases tree.nodes[j]? with
  | none => rfl
  | some node => by_cases h : i = j <;> simp [h, eq_comm]

/-- To put the frame of a number back in its place does nothing. -/
theorem store_self {frame : Frame} (h : tree.frame? i = some frame) :
    tree.store i frame = tree := by
  obtain ⟨nodes⟩ := tree
  unfold frame? at h
  refine congrArg FrameTree.mk (List.ext_getElem? fun j => ?_)
  rw [List.getElem?_modify]
  cases hNode : nodes[j]? with
  | none => rfl
  | some node =>
    by_cases hSame : i = j
    · subst hSame
      rw [show nodes[i]? = some node from hNode] at h
      cases h
      simp
    · simp [hSame]

-- ---------------------------------------------------------------------------
-- Trees with a root
-- ---------------------------------------------------------------------------

/-- Every frame has a way to the main frame, and the numbers get smaller on it. -/
structure Rooted (tree : FrameTree) : Prop where
  nonempty : 0 < tree.size
  descends : ∀ i < tree.size, (tree.path i).Pairwise (· > ·)
  ends : ∀ i < tree.size, (tree.path i).getLast? = some 0

namespace Rooted

/-- No frame comes twice on a way. -/
theorem nodup (h : tree.Rooted) (hi : i < tree.size) : (tree.path i).Nodup :=
  (h.descends i hi).imp Nat.ne_of_gt

/-- The frames on the way to the main frame are frames of the tree. -/
theorem lt_size (h : tree.Rooted) (hi : i < tree.size) (hj : j ∈ tree.path i) : j < tree.size := by
  have hDescends := h.descends i hi
  rw [path] at hDescends hj
  rcases List.mem_cons.mp hj with rfl | hCaller
  · exact hi
  · exact Nat.lt_trans (List.rel_of_pairwise_cons hDescends hCaller) hi

/-- To put a frame in its place leaves every way to the main frame. -/
theorem store (h : tree.Rooted) (i : Nat) (frame : Frame) : (tree.store i frame).Rooted where
  nonempty := by
    rw [size_store]
    exact h.nonempty
  descends := by
    intro j hj
    rw [size_store] at hj
    rw [path_store]
    exact h.descends j hj
  ends := by
    intro j hj
    rw [size_store] at hj
    rw [path_store]
    exact h.ends j hj

/-- A call adds a frame, whose way is that of its caller with itself in front. -/
theorem call (h : tree.Rooted) (hi : i < tree.size) : (tree.call i).Rooted := by
  have hSize : (tree.call i).size = tree.size + 1 := by simp [size, FrameTree.call]
  have hOld : ∀ j < tree.size, (tree.call i).path j = tree.path j := by
    intro j hj
    unfold path FrameTree.call
    rw [List.getElem?_append_left hj]
  have hNew : (tree.call i).path tree.size = tree.size :: tree.path i := by
    unfold path FrameTree.call size
    rw [List.getElem?_concat_length]
    rfl
  -- a frame of the new tree is an old one or the new one
  have hEach : ∀ P : List Nat → Prop, (∀ j < tree.size, P (tree.path j)) →
      P (tree.size :: tree.path i) → ∀ j < (tree.call i).size, P ((tree.call i).path j) := by
    intro P hPath hLast j hj
    rcases Nat.lt_or_ge j tree.size with hBefore | hAfter
    · rw [hOld j hBefore]
      exact hPath j hBefore
    · obtain rfl : j = tree.size := by omega
      rw [hNew]
      exact hLast
  refine ⟨by omega, hEach _ h.descends ?_, hEach (·.getLast? = some 0) h.ends ?_⟩
  · exact List.pairwise_cons.mpr ⟨fun j hj => h.lt_size hi hj, h.descends i hi⟩
  · rw [List.getLast?_cons, h.ends i hi]
    rfl

/-- The chain of a frame has the frames on the way to the main one. -/
theorem frames_chain (h : tree.Rooted) (hi : i < tree.size) :
    (tree.chain i).frames = (tree.path i).map tree.frameAt := by
  obtain ⟨calls, hPath⟩ := List.getLast?_eq_some_iff.mp (h.ends i hi)
  unfold chain Chain.frames
  rw [hPath, List.dropLast_concat, List.map_append]
  rfl

/-- A variable is read in the nearest frame that has a value for it. -/
theorem get?_eq_findSome? (h : tree.Rooted) (hi : i < tree.size) (name : String) :
    tree.get? i name = (tree.path i).findSome? fun j => (tree.frameAt j).get? name := by
  rw [get?, Chain.get?_eq_findSome?, h.frames_chain hi, List.findSome?_map]
  rfl

/-- The target of a write is the nearest frame that binds the variable, or the main
frame at the end of the way. -/
theorem target_nearest (h : tree.Rooted) (hi : i < tree.size) (name : String) :
    ∃ before behind, tree.path i = before ++ tree.target i name :: behind ∧
      (∀ j ∈ before, tree.binds j name = false) ∧
      (tree.binds (tree.target i name) name = true ∨ tree.target i name = 0 ∧ behind = []) := by
  unfold target
  cases hOwner : tree.owner? i name with
  | some w =>
    obtain ⟨hBinds, before, behind, hPath, hBefore⟩ := List.find?_eq_some_iff_append.mp hOwner
    exact ⟨before, behind, hPath, fun j hj => by simpa using hBefore j hj, Or.inl hBinds⟩
  | none =>
    -- no frame on the way binds it, hence it ends with the target
    obtain ⟨calls, hPath⟩ := List.getLast?_eq_some_iff.mp (h.ends i hi)
    refine ⟨calls, [], hPath, fun j hj => ?_, Or.inr ⟨rfl, rfl⟩⟩
    have hMem : j ∈ tree.path i := by
      rw [hPath]
      exact List.mem_append_left _ hj
    simpa using List.find?_eq_none.mp hOwner j hMem

/-- The target of a write is on the way to the main frame. -/
theorem target_mem (h : tree.Rooted) (hi : i < tree.size) (name : String) :
    tree.target i name ∈ tree.path i := by
  obtain ⟨before, behind, hPath, _⟩ := h.target_nearest hi name
  rw [hPath]
  exact List.mem_append_right _ List.mem_cons_self

-- ---------------------------------------------------------------------------
-- A write is a definition
-- ---------------------------------------------------------------------------

/-- A write through the chain of a frame binds the variable in the target of the
write, and leaves the other frames of the chain as they are. -/
theorem frames_set (h : tree.Rooted) (hi : i < tree.size) (name : String) (value : Value) :
    ((tree.chain i).set name value).frames =
      (tree.path i).map (definedAt tree.frameAt (tree.target i name) name value) := by
  obtain ⟨calls, hPath⟩ := List.getLast?_eq_some_iff.mp (h.ends i hi)
  have hNodup := h.nodup hi
  rw [hPath, List.nodup_append] at hNodup
  -- the main frame is the last on the way, apart from all frames of calls
  obtain ⟨hCalls, _, hApart⟩ := hNodup
  have hMain : ∀ j ∈ calls, j ≠ 0 := fun j hj => hApart j hj 0 (List.mem_singleton.mpr rfl)
  have hChain : tree.chain i = ⟨calls.map tree.frameAt, tree.frameAt 0⟩ := by
    unfold chain
    rw [hPath, List.dropLast_concat]
    rfl
  have hSet := Chain.setFirst?_map tree.frameAt name value hCalls
  rw [hChain, Chain.set, target, owner?, hPath, List.find?_append, List.map_append]
  dsimp only
  rw [hSet]
  cases hFind : calls.find? fun j => (tree.frameAt j).binds name with
  -- a frame of a call binds the variable
  | some w =>
    have hw : 0 ≠ w := fun hZero => hMain w (List.mem_of_find?_eq_some hFind) hZero.symm
    rw [show calls.find? (tree.binds · name) = some w from hFind]
    simp only [Option.map_some, Option.some_or, Option.getD_some, Chain.frames, List.map_cons,
      List.map_nil, definedAt_of_ne tree.frameAt hw]
  | none =>
    -- no call frame binds the variable, so it is the main frame's in any case
    have hTarget : ((none : Option Nat).or ([0].find? (tree.binds · name))).getD 0 = 0 := by
      rw [List.find?_singleton]
      cases tree.binds 0 name <;> rfl
    have hKept := map_definedAt_of_notMem tree.frameAt (fun hZero => hMain 0 hZero rfl) name value
    rw [show calls.find? (tree.binds · name) = none from hFind, hTarget, hKept]
    rfl

end Rooted

/-- To put back frames of which all but one are as they were is to put back that
one. -/
theorem foldl_store {after : Nat → Frame} {path : List Nat} (hPath : path.Nodup)
    (hSame : ∀ j ∈ path, j ≠ w → tree.frame? j = some (after j)) :
    (path.zip (path.map after)).foldl (fun tree (j, frame) => tree.store j frame) tree =
      if w ∈ path then tree.store w (after w) else tree := by
  -- frame by frame: what is put back in front of the target is already there
  induction path generalizing tree with
  | nil => rfl
  | cons j path ih =>
    obtain ⟨hFirst, hRest⟩ := List.nodup_cons.mp hPath
    rw [List.map_cons, List.zip_cons_cons, List.foldl_cons]
    dsimp only
    -- the target is here, and not once more behind
    by_cases hj : j = w
    · subst hj
      have hLater : ∀ k ∈ path, k ≠ j → (tree.store j (after j)).frame? k = some (after k) := by
        intro k hk hNe
        rw [frame?_store, hSame k (List.mem_cons_of_mem _ hk) hNe, Option.map_some, if_neg hNe]
      rw [ih hRest hLater, if_neg hFirst, if_pos List.mem_cons_self]
    · have hHere : tree.store j (after j) = tree := store_self (hSame j List.mem_cons_self hj)
      rw [hHere, ih hRest fun k hk => hSame k (List.mem_cons_of_mem _ hk)]
      have hMem : w ∈ j :: path ↔ w ∈ path := by
        rw [List.mem_cons, or_iff_right (Ne.symm hj)]
      simp only [hMem]

/-- **A write is a definition in one frame**, the target of the write. -/
theorem Rooted.set_eq_define (h : tree.Rooted) (hi : i < tree.size) (name : String)
    (value : Value) : tree.set i name value = tree.define (tree.target i name) name value := by
  have hSame : ∀ j ∈ tree.path i, j ≠ tree.target i name →
      tree.frame? j = some (definedAt tree.frameAt (tree.target i name) name value j) := by
    intro j hj hNe
    rw [definedAt_of_ne tree.frameAt hNe]
    exact frame?_of_lt (h.lt_size hi hj)
  rw [set, storeChain, h.frames_set hi, foldl_store (h.nodup hi) hSame,
    if_pos (h.target_mem hi name), definedAt, if_pos rfl]
  rfl

-- ---------------------------------------------------------------------------
-- Who sees a definition
-- ---------------------------------------------------------------------------

/-- A definition is made in one frame. -/
theorem frame?_define (tree : FrameTree) (w : Nat) (name : String) (value : Value) (j : Nat) :
    (tree.define w name value).frame? j =
      (tree.frame? j).map fun old => if j = w then old.define name value else old := by
  unfold define
  rw [frame?_store]
  cases hFrame : tree.frame? j with
  | none => rfl
  | some old =>
    by_cases hj : j = w
    · subst hj
      rw [hFrame]
      rfl
    · simp [hj]

/-- The frame with a number after a definition, seen as one of a list. -/
theorem frameAt_define (hw : w < tree.size) (name : String) (value : Value) (j : Nat) :
    (tree.define w name value).frameAt j = definedAt tree.frameAt w name value j := by
  rw [frameAt, frame?_define]
  by_cases hj : j = w
  · subst hj
    rw [frame?_of_lt hw, definedAt, if_pos rfl, Option.map_some, if_pos rfl, Option.getD_some]
  · rw [definedAt_of_ne tree.frameAt hj, frameAt]
    cases tree.frame? j <;> simp [hj]

/-- The frame of a definition binds the variable, and otherwise the frames bind
what they bound. -/
theorem binds_define (hw : w < tree.size) (name : String) (value : Value) (j : Nat)
    (other : String) :
    (tree.define w name value).binds j other = (j == w && other == name || tree.binds j other) := by
  unfold binds
  rw [frameAt_define hw, definedAt]
  by_cases hj : j = w
  · subst hj
    rw [if_pos rfl, Frame.binds_define]
    simp
  · rw [if_neg hj]
    simp [hj]

theorem size_define (tree : FrameTree) (w : Nat) (name : String) (value : Value) :
    (tree.define w name value).size = tree.size :=
  size_store _ _ _

theorem path_define (tree : FrameTree) (w : Nat) (name : String) (value : Value) (j : Nat) :
    (tree.define w name value).path j = tree.path j :=
  path_store _ _ _ _

/-- The frame that binds a variable in the first place of a list, and the value
that it gives. -/
theorem findSome?_definedAt (frames : Nat → Frame) (w : Nat) (name : String) (value : Value)
    (path : List Nat) :
    path.findSome? (fun j => (definedAt frames w name value j).get? name) =
      if path.find? (fun j => (definedAt frames w name value j).binds name) = some w then
        some value
      else path.findSome? fun j => (frames j).get? name := by
  -- frame by frame: one that is not written to is passed over just if it has no value
  induction path with
  | nil => rfl
  | cons j path ih =>
    rw [List.findSome?_cons, List.findSome?_cons, List.find?_cons]
    by_cases hj : j = w
    · subst hj
      rw [definedAt, if_pos rfl, Frame.get?_define, Frame.binds_define]
      simp
    · rw [definedAt_of_ne frames hj, Frame.binds, Table.contains]
      cases hGet : (frames j).get? name with
      | some found =>
        rw [show (frames j).bindings.find? name = some found from hGet]
        simp [hj]
      | none =>
        rw [show (frames j).bindings.find? name = none from hGet]
        exact ih

/-- **A definition is seen from where its frame is the nearest that binds the
variable**, and from nowhere else. -/
theorem Rooted.get?_define (h : tree.Rooted) (hw : w < tree.size) (hj : j < tree.size)
    (name other : String) (value : Value) :
    (tree.define w name value).get? j other =
      if other = name ∧ (tree.define w name value).owner? j name = some w then some value
      else tree.get? j other := by
  have hAfter : (tree.define w name value).Rooted := h.store w _
  have hFrames : (tree.define w name value).frameAt = definedAt tree.frameAt w name value :=
    funext (frameAt_define hw name value)
  rw [hAfter.get?_eq_findSome? (by rwa [size_define]), h.get?_eq_findSome? hj, owner?,
    path_define, hFrames]
  by_cases hName : other = name
  · subst hName
    unfold binds
    rw [findSome?_definedAt, hFrames]
    simp
  · rw [if_neg fun hBoth => hName hBoth.1]
    -- no frame has another value for another variable
    have hSame : (fun j => (definedAt tree.frameAt w name value j).get? other) =
        fun j => (tree.frameAt j).get? other := by
      funext k
      by_cases hk : k = w
      · subst hk
        rw [definedAt, if_pos rfl, Frame.get?_define, if_neg (by simpa using hName)]
      · rw [definedAt_of_ne tree.frameAt hk]
    rw [hSame]

/-- The target of a write is the nearest frame that binds the variable after
it. -/
theorem Rooted.owner?_define_target (h : tree.Rooted) (hi : i < tree.size) (name : String)
    (value : Value) :
    (tree.define (tree.target i name) name value).owner? i name = some (tree.target i name) := by
  obtain ⟨before, behind, hPath, hBefore, _⟩ := h.target_nearest hi name
  have hBinds := binds_define (h.lt_size hi (h.target_mem hi name)) name value
  have hNodup := h.nodup hi
  rw [hPath, List.nodup_append] at hNodup
  unfold owner?
  rw [path_define]
  -- the frames before it bind the variable no more than they did
  refine List.find?_eq_some_iff_append.mpr ⟨by simp [hBinds], before, behind, hPath, ?_⟩
  intro j hj
  have hNe : j ≠ tree.target i name := hNodup.2.2 j hj _ List.mem_cons_self
  rw [hBinds, beq_eq_false_iff_ne.mpr hNe, hBefore j hj]
  rfl

-- ---------------------------------------------------------------------------
-- Main result
-- ---------------------------------------------------------------------------

/-- The trees that come about from the main frame by calls, definitions and
writes, in any order and from any of the frames. -/
inductive Built : FrameTree → Prop
  | main : Built main
  | call {tree : FrameTree} (h : Built tree) {i : Nat} (hi : i < tree.size) : Built (tree.call i)
  | define {tree : FrameTree} (h : Built tree) {i : Nat} (hi : i < tree.size) (name : String)
    (value : Value) : Built (tree.define i name value)
  | set {tree : FrameTree} (h : Built tree) {i : Nat} (hi : i < tree.size) (name : String)
    (value : Value) : Built (tree.set i name value)

/-- **Every frame of a tree that was built has a way to the main frame.** -/
theorem Built.rooted (h : tree.Built) : tree.Rooted := by
  induction h with
  | main =>
    refine ⟨Nat.zero_lt_one, ?_, ?_⟩ <;>
    · intro i hi
      obtain rfl : i = 0 := Nat.lt_one_iff.mp hi
      decide
  | call _ hi ih => exact ih.call hi
  | define _ _ _ _ ih => exact ih.store _ _
  -- a write is a definition in one frame, which leaves the ways as they are
  | set _ hi name value ih =>
    rw [ih.set_eq_define hi]
    exact ih.store _ _

/-- **A write changes one frame, and only those see it who find the variable
there.** Take any tree that was built from the main frame, and write a variable
from any of its frames. The write goes to the nearest frame on the way to the
main one that binds the variable, or to the main frame if none does, and gives
the variable its value there; no other frame changes, and the frames hang
together as before. Afterwards a variable has the new value, as seen from some
frame, if it is the one written and the nearest frame that now binds it is the
one that was written to; otherwise it has the value that it had before, or none
if it had none. So the frame that writes reads what it has written, frames off
its way to the main frame are as they were, and only the main frame may bind a
variable that it did not bind before. -/
theorem set_writes_one_frame {tree : FrameTree} (h : tree.Built) {f : Nat} (hf : f < tree.size)
    (n : String) (v : Value) :
    let w := tree.target f n
    let after := tree.set f n v
    (∃ before behind, tree.path f = before ++ w :: behind ∧
      (∀ i ∈ before, tree.binds i n = false) ∧ (tree.binds w n = true ∨ w = 0 ∧ behind = [])) ∧
    (after.size = tree.size ∧ (∀ i, after.path i = tree.path i) ∧
      ∀ i, after.frame? i =
        (tree.frame? i).map fun frame => if i = w then frame.define n v else frame) ∧
    (∀ g < tree.size, ∀ m line, after.read g m line =
      if m = n ∧ after.owner? g n = some w then .ok v else tree.read g m line) ∧
    (∀ line, after.read f n line = .ok v) ∧
    (∀ i, i ∉ tree.path f → after.frame? i = tree.frame? i) ∧
    ∀ i m, i ≠ 0 → after.binds i m = tree.binds i m := by
  intro w after
  have hRooted := h.rooted
  -- the whole is read off the definition in the target
  have hMem : w ∈ tree.path f := hRooted.target_mem hf n
  have hw : w < tree.size := hRooted.lt_size hf hMem
  have hAfter : after = tree.define w n v := hRooted.set_eq_define hf n v
  have hNearest := hRooted.target_nearest hf n
  have hOwner : after.owner? f n = some w := by
    rw [hAfter]
    exact hRooted.owner?_define_target hf n v
  have hRead : ∀ g < tree.size, ∀ m line, after.read g m line =
      if m = n ∧ after.owner? g n = some w then .ok v else tree.read g m line := by
    intro g hg m line
    unfold read
    rw [hAfter, hRooted.get?_define hw hg]
    split <;> rfl
  refine ⟨hNearest, ⟨?_, ?_, ?_⟩, hRead, ?_, ?_, ?_⟩
  · rw [hAfter, size_define]
  · rw [hAfter]
    exact path_define tree w n v
  · rw [hAfter]
    exact frame?_define tree w n v
  · intro line
    rw [hRead f hf, if_pos ⟨rfl, hOwner⟩]
  · intro i hi
    have hNe : i ≠ w := by
      rintro rfl
      exact hi hMem
    rw [hAfter, frame?_define]
    simp [hNe]
  · intro i m hi
    rw [hAfter, binds_define hw]
    by_cases hHere : i = w ∧ m = n
    · obtain ⟨rfl, rfl⟩ := hHere
      obtain ⟨_, _, _, _, hBinds | ⟨hMain, _⟩⟩ := hNearest
      · rw [hBinds, Bool.or_true]
      · exact absurd hMain hi
    · have hNot : (i == w && m == n) = false := by simpa using hHere
      rw [hNot, Bool.false_or]

/-- The main frame binds `x` to 1, the first call binds it to 2, and a call made from
there writes it. A second call from the main frame does not see that. -/
theorem set_writes_one_frame_shadowed :
    let tree := ((((main.define 0 "x" (.int 1)).call 0).define 1 "x" (.int 2)).call 1).call 0
    let after := tree.set 2 "x" (.int 9)
    tree.Built ∧ 2 < tree.size ∧ tree.target 2 "x" = 1 ∧
    after.read 2 "x" 5 = .ok (.int 9) ∧
    after.read 3 "x" 5 = tree.read 3 "x" 5 ∧ tree.read 3 "x" 5 = .ok (.int 1) := by
  intro tree after
  have hBuilt : tree.Built := by
    refine .call (.call (.define (.call (.define .main ?_ _ _) ?_) ?_ _ _) ?_) ?_ <;> decide
  have hFrame : 2 < tree.size := by decide
  obtain ⟨_, _, hRead, hSelf, _⟩ := set_writes_one_frame hBuilt hFrame "x" (.int 9)
  have hOther : after.read 3 "x" 5 = tree.read 3 "x" 5 := by
    rw [hRead 3 (by decide) "x" 5]
    decide +kernel
  exact ⟨hBuilt, hFrame, by decide +kernel, hSelf 5, hOther, by decide +kernel⟩

end FrameTree

end Scriptlet
