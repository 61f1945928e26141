import ClassAtlas.Diagram.Sequence
import Mathlib

/-!
A traversal leaves the way as it found it. It puts a class on the way before it follows its calls and
takes it off afterwards; in between it only goes on to classes that are not on the way. So a traversal
shows what one shows that is told the way here and keeps no note of it.
-/
namespace ClassAtlas.Diagram

mutual

/-- The calls reached from a class within a depth. The way here includes the class. -/
def messages (calls : Adjacency) : Nat → List String → String → List Message
  | 0, _, _ => []
  | depth + 1, way, class_ =>
    messagesTo calls depth (class_ :: way) class_ ((calls.targets? class_).getD [])
termination_by depth => (depth, 0)

/-- The calls from a class to some of its targets, each with what it leads to. -/
def messagesTo (calls : Adjacency) (depth : Nat) (way : List String) (class_ : String) :
    List String → List Message
  | [] => []
  | callee :: more =>
    (if way.contains callee then [⟨class_, callee, true⟩]
      else ⟨class_, callee, false⟩ :: messages calls depth way callee) ++
    messagesTo calls depth way class_ more
termination_by targets => (depth, targets.length + 1)

end

theorem follow_run (visit : String → Traversal) (class_ callee : String) (way : List String) :
    (follow visit class_ callee).run way =
      if way.contains callee then ([⟨class_, callee, true⟩], way)
      else (⟨class_, callee, false⟩ :: ((visit callee).run way).1, ((visit callee).run way).2) := by
  simp only [follow, StateT.run_bind, StateT.run_get, pure_bind]
  split <;> rfl

theorem visit_run_succ (calls : Adjacency) (depth : Nat) (class_ : String) (way : List String) :
    (visit calls (depth + 1) class_).run way =
      let followed := (((calls.targets? class_).getD []).mapM (follow (visit calls depth) class_)).run
        (way.insert class_)
      (followed.1.flatten, followed.2.erase class_) := rfl

/-- Steps that each leave the state alone can be taken one by one from the same state. -/
theorem mapM_run_of_restores {σ α β : Type} {f : α → StateM σ β} {s : σ} {xs : List α}
    (h : ∀ x ∈ xs, ((f x).run s).2 = s) :
    (xs.mapM f).run s = (xs.map fun x => ((f x).run s).1, s) := by
  induction xs with
  | nil => rfl
  | cons x xs ih =>
    obtain ⟨hx, hxs⟩ := List.forall_mem_cons.1 h
    have hstep : ((x :: xs).mapM f).run s =
        (((f x).run s).1 :: ((xs.mapM f).run ((f x).run s).2).1,
          ((xs.mapM f).run ((f x).run s).2).2) := by
      rw [List.mapM_cons]
      rfl
    rw [hstep, hx, ih hxs, List.map_cons]

theorem messagesTo_eq (calls : Adjacency) (depth : Nat) (way : List String) (class_ : String)
    (targets : List String) : messagesTo calls depth way class_ targets =
      targets.flatMap fun callee => if way.contains callee then [⟨class_, callee, true⟩]
        else ⟨class_, callee, false⟩ :: messages calls depth way callee := by
  induction targets with
  | nil => rw [messagesTo, List.flatMap_nil]
  | cons callee more ih => rw [messagesTo, ih, List.flatMap_cons]

/-- From a class that is not on the way, a traversal shows the calls reached from it and leaves the way
as it is. -/
theorem visit_run (calls : Adjacency) (depth : Nat) {class_ : String} {way : List String}
    (h : class_ ∉ way) :
    (visit calls depth class_).run way = (messages calls depth way class_, way) := by
  induction depth generalizing class_ way with
  | zero =>
    rw [messages]
    rfl
  | succ depth ih =>
    have hfollow : ∀ callee, (follow (visit calls depth) class_ callee).run (class_ :: way) =
        (if (class_ :: way).contains callee then [⟨class_, callee, true⟩]
          else ⟨class_, callee, false⟩ :: messages calls depth (class_ :: way) callee,
          class_ :: way) := by
      intro callee
      rw [follow_run]
      split
      · rfl
      · next hnew => rw [ih (by simpa using hnew)]
    rw [visit_run_succ, List.insert_of_not_mem h,
      mapM_run_of_restores fun callee _ => by rw [hfollow callee]]
    simp only [hfollow]
    rw [messages, messagesTo_eq, List.erase_cons_head, List.flatMap_def]

theorem endpointMessages_eq (e : Graph.Endpoint) (calls : Adjacency) (depth : Int) :
    endpointMessages e calls depth = messages calls (effectiveDepth depth) [] e.controllerClass := by
  rw [endpointMessages, visit_run calls _ List.not_mem_nil]

end ClassAtlas.Diagram
