/-! # Names of images

Passes speak of images by name. The empty name stands for "no image here": it may be written
wherever a name is expected and never denotes an image.
-/

namespace FrameGraph

set_option autoImplicit false

structure Name where
  text : String
  deriving DecidableEq

namespace Name

/-- The placeholder: the name that denotes no image. -/
def placeholder : Name := ⟨""⟩

def isPlaceholder (n : Name) : Bool := n.text.isEmpty

/-- Names are ordered by code point, which is also the order of their UTF-8 bytes. -/
instance : LT Name := ⟨fun a b => a.text < b.text⟩

instance (a b : Name) : Decidable (a < b) := inferInstanceAs (Decidable (a.text < b.text))

instance : ToString Name := ⟨Name.text⟩

theorem lt_trans {a b c : Name} (hab : a < b) (hbc : b < c) : a < c :=
  String.lt_trans hab hbc

theorem lt_irrefl (a : Name) : ¬ a < a := String.lt_irrefl a.text

theorem lt_asymm {a b : Name} (h : a < b) : ¬ b < a := String.lt_asymm h

theorem eq_of_not_lt {a b : Name} (hab : ¬ a < b) (hba : ¬ b < a) : a = b := by
  obtain ⟨s⟩ := a
  obtain ⟨t⟩ := b
  have hst : s = t := String.le_antisymm (String.not_lt.mp hba) (String.not_lt.mp hab)
  rw [hst]

theorem isPlaceholder_iff {n : Name} : n.isPlaceholder = true ↔ n = placeholder := by
  obtain ⟨s⟩ := n
  simp [isPlaceholder, placeholder]

def insertSorted (n : Name) : List Name → List Name
  | [] => [n]
  | m :: rest =>
    if n < m then n :: m :: rest
    else if m < n then m :: insertSorted n rest
    else m :: n :: rest

def sort (names : List Name) : List Name := names.foldr insertSorted []

def distinct (names : List Name) : List Name := names.eraseDups

end Name

end FrameGraph
