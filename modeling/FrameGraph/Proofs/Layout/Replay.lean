import FrameGraph.Proofs.Device.Log
import Mathlib.Logic.Function.Basic

/-! # Layouts as commands are replayed

A recorded command moves images from one layout to another or needs them in a layout. Which
images a render pass moves is known from the calls that created it, its framebuffer and the views
in the framebuffer.
-/

namespace FrameGraph

set_option autoImplicit false

/-! ## What calls created -/

namespace Call

def info? (o : Object) : Call → Option CreateInfo
  | .create info (.made id) => if o = ⟨info.kind, id⟩ then some info else none
  | _ => none

theorem info?_eq_some {o : Object} {c : Call} {info : CreateInfo} :
    c.info? o = some info ↔ ∃ id, c = .create info (.made id) ∧ o = ⟨info.kind, id⟩ := by
  constructor
  · intro h
    unfold info? at h
    split at h
    · split at h
      · cases h
        exact ⟨_, rfl, by assumption⟩
      · cases h
    · cases h
  · rintro ⟨id, rfl, rfl⟩
    exact if_pos rfl

end Call

namespace Log

def info? (log : List Call) (o : Object) : Option CreateInfo := log.findSome? (Call.info? o)

def renderPass? (log : List Call) (h : Handle .renderPass) : Option RenderPassInfo :=
  match info? log h.object with
  | some (.renderPass info) => some info
  | _ => none

def framebuffer? (log : List Call) (h : Handle .framebuffer) : Option FramebufferInfo :=
  match info? log h.object with
  | some (.framebuffer info) => some info
  | _ => none

def viewed? (log : List Call) (h : Handle .imageView) : Option (Handle .image) :=
  match info? log h.object with
  | some (.imageView info) => some info.image
  | _ => none

theorem info?_of_mem {log : List Call} {info : CreateInfo} {id : Nat}
    (hDistinct : (made log).Nodup) (h : .create info (.made id) ∈ log) :
    info? log ⟨info.kind, id⟩ = some info := by
  induction log with
  | nil => cases h
  | cons c log ih =>
    obtain ⟨-, hRest, hDisjoint⟩ := List.nodup_append.mp (show (c.made ++ made log).Nodup from
      hDistinct)
    rw [info?, List.findSome?_cons]
    rcases List.mem_cons.mp h with rfl | hMem
    · rw [Call.info?_eq_some.mpr ⟨id, rfl, rfl⟩]
    · cases hInfo : c.info? ⟨info.kind, id⟩ with
      | none => exact ih hRest hMem
      | some info' =>
        obtain ⟨id', rfl, hSame⟩ := Call.info?_eq_some.mp hInfo
        have hMade : (⟨info.kind, id⟩ : Object) ∈ made log :=
          List.mem_flatMap.mpr ⟨.create info (.made id), hMem, List.mem_singleton_self _⟩
        exact absurd hSame.symm (hDisjoint _ (List.mem_singleton_self _) _ hMade)

variable {log : List Call} (hDistinct : (made log).Nodup)

include hDistinct

theorem renderPass?_of_mem {info : RenderPassInfo} {h : Handle .renderPass}
    (hMem : .create (.renderPass info) (.made h.id) ∈ log) : renderPass? log h = some info := by
  have hInfo : info? log h.object = some (.renderPass info) := info?_of_mem hDistinct hMem
  rw [renderPass?, hInfo]

theorem framebuffer?_of_mem {info : FramebufferInfo} {h : Handle .framebuffer}
    (hMem : .create (.framebuffer info) (.made h.id) ∈ log) :
    framebuffer? log h = some info := by
  have hInfo : info? log h.object = some (.framebuffer info) := info?_of_mem hDistinct hMem
  rw [framebuffer?, hInfo]

theorem viewed?_of_mem {info : ViewInfo} {h : Handle .imageView}
    (hMem : .create (.imageView info) (.made h.id) ∈ log) : viewed? log h = some info.image := by
  have hInfo : info? log h.object = some (.imageView info) := info?_of_mem hDistinct hMem
  rw [viewed?, hInfo]

end Log

/-! ## Events -/

inductive LayoutEvent where
  | move (image : Handle .image) (before after : Layout)
  | need (image : Handle .image) (layout : Layout)
  deriving DecidableEq

abbrev Layouts := Handle .image → Layout

namespace LayoutEvent

def apply (layouts : Layouts) : LayoutEvent → Layouts
  | .move image _ after => Function.update layouts image after
  | .need _ _ => layouts

def moved : LayoutEvent → List (Handle .image)
  | .move image _ _ => [image]
  | .need _ _ => []

/-- A move starts from the layout in which the image is or forgets what is in the image, and it
forgets an image of `own` exactly if the image was not touched before. -/
def Fits (own : Handle .image → Prop) (layouts : Layouts) (touched : List (Handle .image)) :
    LayoutEvent → Prop
  | .move image before _ => (before = .undefined ∨ before = layouts image) ∧
      (own image → (before = .undefined ↔ image ∉ touched))
  | .need image layout => layouts image = layout

def replay (layouts : Layouts) (events : List LayoutEvent) : Layouts := events.foldl apply layouts

/-- Every event fits in its turn. -/
def Replays (own : Handle .image → Prop) :
    Layouts → List (Handle .image) → List LayoutEvent → Prop
  | _, _, [] => True
  | layouts, touched, e :: rest => e.Fits own layouts touched ∧
      Replays own (e.apply layouts) (touched ++ e.moved) rest

theorem replays_append {own : Handle .image → Prop} {layouts : Layouts}
    {touched : List (Handle .image)} {first second : List LayoutEvent} :
    Replays own layouts touched (first ++ second) ↔ Replays own layouts touched first ∧
      Replays own (replay layouts first) (touched ++ first.flatMap moved) second := by
  induction first generalizing layouts touched with
  | nil => simp [Replays, replay]
  | cons e first ih =>
    rw [List.cons_append, Replays, ih, Replays, List.flatMap_cons, ← List.append_assoc, and_assoc]
    rfl

end LayoutEvent

/-! ## Commands -/

namespace Command

/-- The events of the command, where `built` are the calls that created what it speaks of. -/
def layoutEvents (built : List Call) : Command → Option (List LayoutEvent)
  | .barrier info => some (info.images.map fun b => .move b.image b.before b.after)
  | .copyImage info =>
    some [.need info.source info.sourceLayout, .need info.target info.targetLayout]
  | .beginRenderPass info => do
    let renderPass ← Log.renderPass? built info.renderPass
    let framebuffer ← Log.framebuffer? built (← info.framebuffer)
    let images ← framebuffer.views.mapM (Log.viewed? built)
    if images.length = renderPass.targets.length then
      return List.zipWith (fun image t => .move image t.initial t.final) images renderPass.targets
    else none
  | _ => some []

def allLayoutEvents (built : List Call) : List Command → Option (List LayoutEvent)
  | [] => some []
  | c :: rest => do return (← c.layoutEvents built) ++ (← allLayoutEvents built rest)

theorem allLayoutEvents_append (built : List Call) (first second : List Command) :
    allLayoutEvents built (first ++ second) = do
      return (← allLayoutEvents built first) ++ (← allLayoutEvents built second) := by
  induction first with
  | nil => simp [allLayoutEvents]
  | cons c first ih =>
    rw [List.cons_append, allLayoutEvents, ih, allLayoutEvents]
    cases c.layoutEvents built with
    | none => rfl
    | some events =>
      cases allLayoutEvents built first with
      | none => rfl
      | some _ =>
        cases allLayoutEvents built second with
        | none => rfl
        | some _ => simp

theorem allLayoutEvents_of_forall_nil {built : List Call} {commands : List Command}
    (h : ∀ c ∈ commands, c.layoutEvents built = some []) :
    allLayoutEvents built commands = some [] := by
  induction commands with
  | nil => rfl
  | cons c commands ih =>
    obtain ⟨hHead, hTail⟩ := List.forall_mem_cons.mp h
    rw [allLayoutEvents, hHead, ih hTail]
    rfl

theorem allLayoutEvents_append_eq_some {built : List Call} {first second : List Command}
    {events more : List LayoutEvent} (hFirst : allLayoutEvents built first = some events)
    (hSecond : allLayoutEvents built second = some more) :
    allLayoutEvents built (first ++ second) = some (events ++ more) := by
  rw [allLayoutEvents_append, hFirst, hSecond]
  rfl

end Command

def Call.recorded : Call → List Command
  | .record _ c => [c]
  | _ => []

namespace Log

def commands (log : List Call) : List Command := log.flatMap Call.recorded

@[simp] theorem commands_append (log next : List Call) :
    commands (log ++ next) = commands log ++ commands next := List.flatMap_append

@[simp] theorem commands_records (buffer : CommandBuffer) (cs : List Command) :
    commands (cs.map (.record buffer)) = cs := by
  simp [commands, List.flatMap_map, Call.recorded]

/-- The events of all recorded commands. -/
def layoutEvents (built log : List Call) : Option (List LayoutEvent) :=
  Command.allLayoutEvents built (commands log)

end Log

end FrameGraph
