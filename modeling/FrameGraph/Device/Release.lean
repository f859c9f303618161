import FrameGraph.Device.Call

/-! # Order of releases

Images that go together may be destroyed in any order, and so may set layouts. Which order it is
is given by a shuffle. Where calls are listed, every run of such releases is put in the order of
the identifiers.
-/

namespace FrameGraph

set_option autoImplicit false

/-! ## Orders -/

/-- An order in which to take the members of a list, by their places in lists of every length. -/
structure Shuffle where
  places : Nat → List Nat
  perm : ∀ n, (places n).Perm (List.range n)

namespace Shuffle

variable {α : Type}

def inOrder : Shuffle := ⟨List.range, fun _ => .refl _⟩

def backward : Shuffle := ⟨fun n => (List.range n).reverse, fun _ => List.reverse_perm _⟩

def apply (s : Shuffle) (as : List α) : List α := (s.places as.length).filterMap (as[·]?)

theorem filterMap_range (as : List α) : (List.range as.length).filterMap (as[·]?) = as := by
  induction as with
  | nil => rfl
  | cons a as ih =>
    have hFirst : (fun k : Nat => (a :: as)[k]?) 0 = some a := rfl
    rw [List.length_cons, List.range_succ_eq_map, List.filterMap_cons_some hFirst,
      List.filterMap_map]
    exact congrArg (a :: ·) ih

/-- Every member is taken once. -/
theorem apply_perm (s : Shuffle) (as : List α) : (s.apply as).Perm as := by
  have hPlaces := (s.perm as.length).filterMap (as[·]?)
  rwa [filterMap_range] at hPlaces

end Shuffle

/-! ## Listed releases -/

/-- A call, or the three calls that destroy an image with its view and its memory. -/
inductive Release where
  | image (view image memory : Nat)
  | setLayout (id : Nat)
  | other (call : Call)
  deriving DecidableEq

namespace Release

/-- Reads off the releases from left to right. -/
def read : List Call → List Release
  | .destroy ⟨.imageView, v⟩ :: .destroy ⟨.image, i⟩ :: .destroy ⟨.memory, m⟩ :: rest =>
    .image v i m :: read rest
  | .destroy ⟨.setLayout, id⟩ :: rest => .setLayout id :: read rest
  | c :: rest => .other c :: read rest
  | [] => []

def calls : Release → List Call
  | .image v i m =>
    [.destroy ⟨.imageView, v⟩, .destroy ⟨.image, i⟩, .destroy ⟨.memory, m⟩]
  | .setLayout id => [.destroy ⟨.setLayout, id⟩]
  | .other c => [c]

/-- The two may change places, and the second one belongs first. -/
def after : Release → Release → Bool
  | .image v _ _, .image w _ _ => w < v
  | .setLayout i, .setLayout j => j < i
  | _, _ => false

/-- Puts a release into its place in the run that follows it. -/
def settle (r : Release) : List Release → List Release
  | [] => [r]
  | s :: rest => if r.after s then s :: settle r rest else r :: s :: rest

/-- The calls with every run of releases in order. -/
def arrange (calls : List Call) : List Call :=
  ((read calls).foldr settle []).flatMap Release.calls

end Release

end FrameGraph
