import FrameGraph.Proofs.Host.Answers
import FrameGraph.Proofs.Image.Creation
import FrameGraph.Proofs.Name.Map
import FrameGraph.Proofs.Plan.Confinement
import FrameGraph.Proofs.Traversal

/-! # The calls that allocate the images of a plan

The images are created one after the other in the order of their names. When one of them fails,
those before it go again.
-/

namespace FrameGraph

set_option autoImplicit false

open Host

namespace Image

/-- The objects of images that go together, in the order in which they are destroyed. -/
def releasedObjects (s : Script) (images : List Image) : List Object :=
  (s.shuffled objects images).flatMap objects

theorem releasedObjects_perm (s : Script) (images : List Image) :
    (releasedObjects s images).Perm (images.flatMap objects) :=
  (s.shuffled_perm objects images).flatMap_right objects

theorem releasedObjects_nil (s : Script) : releasedObjects s [] = [] :=
  (releasedObjects_perm s []).eq_nil

end Image

namespace ImageMap

/-- What the images own. -/
def objects (images : ImageMap) : List Object := images.values.flatMap Image.objects

theorem objects_eq (images : ImageMap) :
    images.objects = images.entries.flatMap fun e => e.2.objects := by
  rw [objects, NameMap.values, List.flatMap_map]

theorem sent_drop (images : ImageMap) (h : Host) :
    Sent h (images.drop.run h).2
      ((Image.releasedObjects h.device.script images.values).map .destroy) := by
  have hSent := sent_forM (fun (i : Image) h => sent_destroyAll i.objects h)
    (h.device.script.shuffled Image.objects images.values) h
  rwa [← List.map_flatMap] at hSent

theorem mem_objects {images : ImageMap} {n : Name} {i : Image} (hImage : images.get? n = some i)
    {o : Object} (ho : o ∈ i.objects) : o ∈ images.objects := by
  rw [objects_eq]
  exact List.mem_flatMap.mpr ⟨(n, i), NameMap.get?_eq_some.mp hImage, ho⟩

/-- The image of a name behind all others is put at the end, in front of the names to come. -/
theorem insert_last {images : ImageMap} {name : Name} {rest : List Name}
    (hOrder : (images.keys ++ name :: rest).Pairwise (· < ·)) (i : Image) :
    (images.insert name i).entries = images.entries ++ [(name, i)] ∧
      ((images.insert name i).keys ++ rest).Pairwise (· < ·) ∧
      (images.insert name i).values = images.values ++ [i] := by
  rw [List.append_cons] at hOrder
  have hBefore : ∀ e ∈ images.entries, e.1 < name := fun e he =>
    (List.pairwise_append.mp (List.pairwise_append.mp hOrder).1).2.2 e.1
      (List.mem_map_of_mem he) name (List.mem_singleton_self name)
  have hEntries : (images.insert name i).entries = images.entries ++ [(name, i)] :=
    NameMap.put_of_forall_lt i hBefore
  have hKeys : (images.insert name i).keys = images.keys ++ [name] := by
    rw [NameMap.keys, hEntries, List.map_append]
    rfl
  refine ⟨hEntries, hKeys ▸ hOrder, ?_⟩
  rw [NameMap.values, hEntries, List.map_append]
  rfl

end ImageMap

namespace UsageMap

/-- What can be said against the usages before anything is created for them. -/
def check (m : UsageMap) (output : Name) : Except BuildError (List TargetKind) := do
  m.checkOutput output
  m.entries.mapM fun u => kindOf u.1 u.2

/-- The images for a list of usages, and the calls that created them. -/
inductive Allocates (s : Surface) :
    List (Name × ImageUsage) → List (Name × Image) → List Call → Prop
  | nil : Allocates s [] [] []
  | cons {name : Name} {usage : ImageUsage} {kind : TargetKind} {i : Image} {log next : List Call}
      {rest : List (Name × ImageUsage)} {images : List (Name × Image)}
      (hKind : kindOf name usage = .ok kind)
      (hImage : (s.request name usage kind).Fulfilled i log)
      (hRest : Allocates s rest images next) :
      Allocates s ((name, usage) :: rest) ((name, i) :: images) (log ++ next)

namespace Allocates

variable {s : Surface} {uses : List (Name × ImageUsage)} {images : List (Name × Image)}
  {log : List Call}

theorem builds (h : Allocates s uses images log) :
    Log.Builds [] log (images.flatMap fun e => e.2.objects) := by
  induction h with
  | nil => exact .nil
  | cons _ hImage _ ih => exact hImage.builds.beside ih

/-- An object of an image relies on no object of another one. -/
theorem reliance_mem (h : Allocates s uses images log) {r : Reliance}
    (hr : r ∈ Log.reliances log) : ∃ e ∈ images, [r.user, r.base].Sublist e.2.objects := by
  induction h with
  | nil => cases hr
  | cons _ hImage _ ih =>
    rcases List.mem_append.mp (Log.reliances_append _ _ ▸ hr) with hr | hr
    · have hFirst := hImage.builds.usersFirst r hr
      rw [List.append_nil] at hFirst
      exact ⟨_, List.mem_cons_self, hFirst⟩
    · obtain ⟨e, he, hFirst⟩ := ih hr
      exact ⟨e, List.mem_cons_of_mem _ he, hFirst⟩

/-- The images may go in any order. -/
theorem builds_released (h : Allocates s uses images log) (script : Script) :
    Log.Builds [] log (Image.releasedObjects script (images.map Prod.snd)) := by
  have hObjects : (images.map Prod.snd).flatMap Image.objects =
      images.flatMap fun e => e.2.objects := List.flatMap_map ..
  refine h.builds.reorder (hObjects ▸ Image.releasedObjects_perm script _) fun r hr => ?_
  obtain ⟨e, he, hFirst⟩ := h.reliance_mem hr
  have hMem : e.2 ∈ script.shuffled Image.objects (images.map Prod.snd) :=
    (script.shuffled_perm _ _).mem_iff.mpr (List.mem_map_of_mem he)
  rw [List.append_nil]
  exact hFirst.trans (List.sublist_flatten_of_mem (List.mem_map_of_mem hMem))

theorem kinds (h : Allocates s uses images log) :
    ∃ kinds, (uses.mapM fun u => kindOf u.1 u.2) = .ok kinds := by
  apply Traversal.exists_mapM_eq_ok.mpr
  induction h with
  | nil => exact List.forall_mem_nil _
  | cons hKind _ _ ih => exact List.forall_mem_cons.mpr ⟨⟨_, hKind⟩, ih⟩

theorem names (h : Allocates s uses images log) :
    images.map Prod.fst = uses.map Prod.fst := by
  induction h with
  | nil => rfl
  | cons _ _ _ ih => rw [List.map_cons, List.map_cons, ih]

theorem image_mem (h : Allocates s uses images log) {e : Name × Image} (he : e ∈ images) :
    ∃ usage kind calls, (e.1, usage) ∈ uses ∧ kindOf e.1 usage = .ok kind ∧
      (s.request e.1 usage kind).Fulfilled e.2 calls ∧ calls ⊆ log := by
  induction h with
  | nil => cases he
  | cons hKind hImage _ ih =>
    rcases List.mem_cons.mp he with rfl | he
    · exact ⟨_, _, _, List.mem_cons_self, hKind, hImage, List.subset_append_left _ _⟩
    · obtain ⟨usage, kind, calls, hUsage, hKind, hCalls, hSubset⟩ := ih he
      exact ⟨usage, kind, calls, List.mem_cons_of_mem _ hUsage, hKind, hCalls,
        fun c hc => List.mem_append_right _ (hSubset hc)⟩

theorem view_mem {images : ImageMap} (h : Allocates s uses images.entries log) {n : Name}
    {i : Image} (hImage : images.get? n = some i) : i.view.object ∈ images.objects := by
  obtain ⟨_, _, _, -, -, hFulfilled, -⟩ := h.image_mem (NameMap.get?_eq_some.mp hImage)
  obtain ⟨memory, hObjects⟩ := hFulfilled.objects_eq
  exact ImageMap.mem_objects hImage (hObjects ▸ List.mem_cons_self)

end Allocates

/-! ## The first image that fails -/

/-- Why there is no image for the usage, and the calls of the attempt to create it. -/
inductive Stops (env : Environment) (h : Host) (name : Name) (usage : ImageUsage) :
    BuildError → List Call → Prop
  | conflict {e : BuildError} (hKind : kindOf name usage = .error e) :
      Stops env h name usage e []
  | failed {kind : TargetKind} {e : ImageError} {log : List Call}
      (hKind : kindOf name usage = .ok kind)
      (hAttempt : (env.surface.request name usage kind).Attempts env.memory h.device (.error e)
        log) : Stops env h name usage (.image e) log

/-- The usages before this one have images, and this one stops. -/
structure StopsAt (env : Environment) (h : Host) (uses before : List (Name × ImageUsage))
    (name : Name) (usage : ImageUsage) (images : List (Name × Image)) (e : BuildError)
    (first last : List Call) : Prop where
  split : ∃ after, uses = before ++ (name, usage) :: after
  images : Allocates env.surface before images first
  stops : ∃ h₁, Sent h h₁ first ∧ Stops env h₁ name usage e last

section Stopping

variable {env : Environment} {h h₁ : Host} {uses before : List (Name × ImageUsage)}
  {name n : Name} {usage u : ImageUsage} {images : List (Name × Image)} {e : BuildError}
  {log first last : List Call}

theorem Stops.reverts (hStops : Stops env h name usage e log) : Log.Reverts [] log := by
  cases hStops with
  | conflict => exact Log.Builds.nil.undo
  | failed _ hAttempt => exact hAttempt.reverts

theorem Stops.reason (hStops : Stops env h name usage e log) :
    kindOf name usage = .error e ∨ ¬ h.device.script.Obliging env.memory := by
  cases hStops with
  | conflict hKind => exact .inl hKind
  | failed _ hAttempt => exact .inr hAttempt.not_obliging

theorem StopsAt.cons {kind : TargetKind} {i : Image}
    (hStops : StopsAt env h₁ uses before name usage images e first last) (hSent : Sent h h₁ log)
    (hKind : kindOf n u = .ok kind)
    (hImage : (env.surface.request n u kind).Fulfilled i log) :
    StopsAt env h ((n, u) :: uses) ((n, u) :: before) name usage ((n, i) :: images) e
      (log ++ first) last where
  split := by
    obtain ⟨after, rfl⟩ := hStops.split
    exact ⟨after, rfl⟩
  images := .cons hKind hImage hStops.images
  stops := by
    obtain ⟨h₂, hNext, hLast⟩ := hStops.stops
    exact ⟨h₂, hSent.trans hNext, hLast⟩

theorem StopsAt.reverts (hStops : StopsAt env h uses before name usage images e first last)
    (script : Script) : Log.Reverts []
      (first ++ last ++ (Image.releasedObjects script (images.map Prod.snd)).map .destroy) := by
  obtain ⟨h₁, -, hLast⟩ := hStops.stops
  rw [List.append_assoc]
  exact .after (hStops.images.builds_released script) (hLast.reverts.mono (List.nil_sublist _))

theorem StopsAt.reason (hStops : StopsAt env h uses before name usage images e first last) :
    (uses.mapM fun u => kindOf u.1 u.2) = .error e ∨
      ¬ h.device.script.Obliging env.memory := by
  obtain ⟨after, rfl⟩ := hStops.split
  obtain ⟨h₁, hSent, hLast⟩ := hStops.stops
  have hReason := hLast.reason
  rw [hSent.script] at hReason
  refine hReason.imp_left fun hKind => Traversal.mapM_eq_error.mpr ?_
  exact ⟨before, (name, usage), after, rfl,
    Traversal.exists_mapM_eq_ok.mp hStops.images.kinds, hKind⟩

end Stopping

variable (env : Environment)

theorem ends_createImage (name : Name) (usage : ImageUsage) (h : Host) :
    Ends (createImage env name usage) h
      (fun i log => ∃ kind, kindOf name usage = .ok kind ∧
        (env.surface.request name usage kind).Fulfilled i log)
      fun e log => Stops env h name usage e log := by
  unfold createImage
  refine Ends.ofExcept_bind (fun kind hKind => ?_) fun e he => .conflict he
  have hCreate : Ends ((Image.create env (env.surface.request name usage kind)).adapt .image) h
      (fun i log => (env.surface.request name usage kind).Fulfilled i log)
      fun e log => Stops env h name usage e log :=
    .adapt ((Image.ends_create_attempts env _ h).mono (fun _ _ hAttempt => hAttempt.fulfilled)
      fun _ _ hAttempt => .failed hKind hAttempt)
  refine hCreate.bind ?_
  intro i log h₁ hFulfilled hSent
  exact Ends.quietly (sent_report _ _) (Ends.pure ⟨kind, hKind, by simpa using hFulfilled⟩)

/-- How the creation of images for some usages ends, next to the images that are there: the
result, the calls up to the end, and the images that are released then. -/
inductive Creates (env : Environment) (h : Host) (uses : List (Name × ImageUsage))
    (images : ImageMap) : Except BuildError ImageMap → List Call → List Image → Prop
  | done {result : ImageMap} {new : List (Name × Image)} {log : List Call}
      (hResult : result.entries = images.entries ++ new)
      (hNew : Allocates env.surface uses new log) :
      Creates env h uses images (.ok result) log []
  | stopped {before : List (Name × ImageUsage)} {name : Name} {usage : ImageUsage}
      {new : List (Name × Image)} {e : BuildError} {first last : List Call}
      (hStops : StopsAt env h uses before name usage new e first last) :
      Creates env h uses images (.error e) (first ++ last) (images.values ++ new.map Prod.snd)

theorem Creates.cons {h h₁ : Host} {name : Name} {usage : ImageUsage} {kind : TargetKind}
    {i : Image} {rest : List (Name × ImageUsage)} {images : ImageMap}
    {result : Except BuildError ImageMap} {log next : List Call} {gone : List Image}
    (hRest : Creates env h₁ rest (images.insert name i) result next gone)
    (hSent : Sent h h₁ log) (hKind : kindOf name usage = .ok kind)
    (hImage : (env.surface.request name usage kind).Fulfilled i log)
    (hOrder : (images.keys ++ name :: rest.map Prod.fst).Pairwise (· < ·)) :
    Creates env h ((name, usage) :: rest) images result (log ++ next) gone := by
  obtain ⟨hEntries, -, hValues⟩ := images.insert_last hOrder i
  cases hRest with
  | done hResult hNew =>
    refine .done ?_ (.cons hKind hImage hNew)
    rw [hResult, hEntries, List.append_assoc]
    rfl
  | stopped hStops =>
    have hAll := hStops.cons hSent hKind hImage
    rw [hValues, List.append_assoc, ← List.append_assoc log]
    exact .stopped hAll

/-- The work has the result. It sends the calls, and then it releases the images, in the order
that is up to its host. -/
structure Leaves (work : HostE BuildError ImageMap) (h : Host)
    (result : Except BuildError ImageMap) (log : List Call) (gone : List Image) : Prop where
  result : (work.run.run h).1 = result
  sent : Sent h (work.run.run h).2
    (log ++ (Image.releasedObjects h.device.script gone).map .destroy)

section Leaving

variable {env} {h h₁ : Host} {name : Name} {usage : ImageUsage} {rest : List (Name × ImageUsage)}
  {images : ImageMap} {log next : List Call}

theorem Leaves.nothing {work : HostE BuildError ImageMap} {result : Except BuildError ImageMap}
    (hRun : work.run.run h = (result, h₁)) (hSent : Sent h h₁ log) :
    Leaves work h result log [] := by
  constructor
  · rw [hRun]
  · rw [hRun, Image.releasedObjects_nil, List.map_nil, List.append_nil]
    exact hSent

theorem Leaves.created {i : Image} {result : Except BuildError ImageMap} {gone : List Image}
    (hRun : (createImage env name usage).run.run h = (.ok i, h₁)) (hSent : Sent h h₁ log)
    (hRest : Leaves (createImages env rest (images.insert name i)) h₁ result next gone) :
    Leaves (createImages env ((name, usage) :: rest) images) h result (log ++ next) gone := by
  have hAll : (createImages env ((name, usage) :: rest) images).run.run h =
      (createImages env rest (images.insert name i)).run.run h₁ := by
    rw [createImages, run_bind, cleaningUp, run_onFailure, hRun]
  constructor
  · rw [hAll]
    exact hRest.result
  · rw [hAll, List.append_assoc, ← hSent.script]
    exact hSent.trans hRest.sent

theorem Leaves.refused {e : BuildError}
    (hRun : (createImage env name usage).run.run h = (.error e, h₁)) (hSent : Sent h h₁ log) :
    Leaves (createImages env ((name, usage) :: rest) images) h (.error e) log images.values := by
  have hAll : (createImages env ((name, usage) :: rest) images).run.run h =
      (.error e, (images.drop.run h₁).2) := by
    rw [createImages, run_bind, cleaningUp, run_onFailure, hRun]
  constructor
  · rw [hAll]
  · rw [hAll, ← hSent.script]
    exact hSent.trans (images.sent_drop h₁)

end Leaving

/-- In hosts that give the same answers, the images are created alike. Only the releases after a
failure may go in different orders. -/
theorem createImages_alike (rest : List (Name × ImageUsage)) (images : ImageMap)
    (hOrder : (images.keys ++ rest.map Prod.fst).Pairwise (· < ·)) {h h' : Host}
    (hLike : AnswersLike h h') : ∃ result log gone, Creates env h rest images result log gone ∧
      Leaves (createImages env rest images) h result log gone ∧
      Leaves (createImages env rest images) h' result log gone := by
  -- All remaining names are behind those that have an image, so new entries go to the end.
  induction rest generalizing images h h' with
  | nil =>
    have hCreates : Creates env h [] images (.ok images) [] [] := .done (by simp) .nil
    exact ⟨_, _, _, hCreates, .nothing rfl (.refl h), .nothing rfl (.refl h')⟩
  | cons u rest ih =>
    obtain ⟨name, usage⟩ := u
    have hCreate := (confined_createImage env (List.mem_singleton_self (name, usage))).reproducible
    obtain ⟨hResult, hAfter, log, hSent, hSent'⟩ := hCreate not_false hLike
    rcases hRun' : (createImage env name usage).run.run h' with ⟨result', h₁'⟩
    rcases (ends_createImage env name usage h).cases with
      ⟨i, h₁, calls, hRun, hCalls, kind, hKind, hImage⟩ | ⟨e, h₁, calls, hRun, hCalls, hStops⟩
    · rw [hRun, hRun'] at hResult hAfter
      rw [hRun] at hSent
      rw [hRun'] at hSent'
      obtain rfl := hResult
      obtain rfl := hSent.unique hCalls
      obtain ⟨-, hNext, -⟩ := images.insert_last hOrder i
      obtain ⟨result, next, gone, hRest, hLeaves, hLeaves'⟩ :=
        ih (images.insert name i) hNext hAfter
      exact ⟨result, log ++ next, gone, hRest.cons env hSent hKind hImage hOrder,
        .created hRun hSent hLeaves, .created hRun' hSent' hLeaves'⟩
    · rw [hRun, hRun'] at hResult
      rw [hRun] at hSent
      rw [hRun'] at hSent'
      obtain rfl := hResult
      obtain rfl := hSent.unique hCalls
      have hNow : StopsAt env h ((name, usage) :: rest) [] name usage [] e [] log :=
        ⟨⟨rest, rfl⟩, .nil, h, .refl h, hStops⟩
      have hCreates : Creates env h ((name, usage) :: rest) images (.error e) log
          (images.values ++ []) := .stopped hNow
      rw [List.append_nil] at hCreates
      exact ⟨_, _, _, hCreates, .refused hRun hSent, .refused hRun' hSent'⟩

/-- How the allocation of the images of a plan ends. An output that cannot be shown is refused
before any call. -/
inductive Finishes (env : Environment) (h : Host) (m : UsageMap) (output : Name) :
    Except BuildError ImageMap → List Call → List Image → Prop
  | refused {e : BuildError} (hOutput : m.checkOutput output = .error e) :
      Finishes env h m output (.error e) [] []
  | stopped {before : List (Name × ImageUsage)} {name : Name} {usage : ImageUsage}
      {images : List (Name × Image)} {e : BuildError} {first last : List Call}
      (hOutput : m.checkOutput output = .ok ())
      (hStops : StopsAt env h m.entries before name usage images e first last) :
      Finishes env h m output (.error e) (first ++ last) (images.map Prod.snd)
  | complete {images : ImageMap} {log : List Call} (hOutput : m.checkOutput output = .ok ())
      (hImages : Allocates env.surface m.entries images.entries log) :
      Finishes env h m output (.ok images) log []

theorem allocate_alike (m : UsageMap) (output : Name) {h h' : Host} (hLike : AnswersLike h h') :
    ∃ result log gone, Finishes env h m output result log gone ∧
      Leaves (m.allocate env output) h result log gone ∧
      Leaves (m.allocate env output) h' result log gone := by
  unfold allocate
  cases hOutput : m.checkOutput output with
  | error e =>
    exact ⟨_, _, _, .refused hOutput, .nothing rfl (.refl h), .nothing rfl (.refl h')⟩
  | ok _ =>
    have hOrder : ((NameMap.empty : ImageMap).keys ++ m.entries.map Prod.fst).Pairwise (· < ·) :=
      List.pairwise_map.mpr m.increasing
    obtain ⟨result, log, gone, hCreates, hLeaves, hLeaves'⟩ :=
      createImages_alike env m.entries .empty hOrder hLike
    refine ⟨result, log, gone, ?_, hLeaves, hLeaves'⟩
    cases hCreates with
    | done hResult hNew =>
      obtain rfl := hResult
      exact .complete hOutput hNew
    | stopped hStops => exact .stopped hOutput hStops

/-- Allocation fails for what can be said against the usages, or because of the device. -/
theorem ends_allocate (m : UsageMap) (output : Name) (h : Host) :
    Ends (m.allocate env output) h
      (fun images log => Allocates env.surface m.entries images.entries log ∧
        ∃ kinds, m.check output = .ok kinds)
      fun e log => Log.Reverts [] log ∧
        (m.check output = .error e ∨ ¬ h.device.script.Obliging env.memory) := by
  unfold check
  obtain ⟨result, log, gone, hFinishes, hLeaves, -⟩ := allocate_alike env m output (.refl h)
  refine ⟨_, hLeaves.sent, ?_⟩
  rw [hLeaves.result]
  cases hFinishes with
  | refused hOutput =>
    rw [hOutput, Image.releasedObjects_nil]
    exact ⟨Log.Builds.nil.undo, .inl rfl⟩
  | stopped hOutput hStops =>
    rw [hOutput]
    exact ⟨hStops.reverts _, hStops.reason⟩
  | complete hOutput hImages =>
    rw [hOutput, Image.releasedObjects_nil, List.map_nil, List.append_nil]
    exact ⟨hImages, hImages.kinds⟩

end UsageMap

end FrameGraph
