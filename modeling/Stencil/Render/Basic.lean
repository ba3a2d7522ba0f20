import Stencil.Store

/-!
Rendering as an action on the store. Whatever happens, a render leaves the
store that it had reached: what was logged, compiled or kept before a failure
stays. Running out of steps is no failure and cannot be handled; it tells that
the number of steps granted was too small.

A task is a piece of work that may lead to any other piece of work: the nodes of a
program, a template as a whole, or the elements of a page. What carries tasks out
is a parameter of everything that starts them.
-/

namespace Stencil

/-- How a part of a render ends. -/
inductive Outcome (α : Type) where
  | done (value : α)
  | failed (error : RenderError)
  | exhausted
  deriving DecidableEq

def Render (α : Type) := Store → Outcome α × Store

namespace Render

variable {α β : Type}

instance : Monad Render where
  pure a := fun store => (.done a, store)
  bind action next := fun store =>
    match action store with
    | (.done a, store) => next a store
    | (.failed e, store) => (.failed e, store)
    | (.exhausted, store) => (.exhausted, store)

theorem pure_run (a : α) (store : Store) : (pure a : Render α) store = (.done a, store) := rfl

theorem bind_run (action : Render α) (next : α → Render β) (store : Store) :
    (action >>= next) store =
      match action store with
      | (.done a, store) => next a store
      | (.failed e, store) => (.failed e, store)
      | (.exhausted, store) => (.exhausted, store) := rfl

theorem bind_pure_run (action : Render α) : action >>= pure = action := by
  funext store
  rw [bind_run]
  rcases action store with ⟨_ | _ | _, _⟩ <;> rfl

theorem bind_bind_run {γ : Type} (action : Render α) (next : α → Render β)
    (last : β → Render γ) :
    action >>= next >>= last = action >>= fun a => next a >>= last := by
  funext store
  simp only [bind_run]
  rcases action store with ⟨_ | _ | _, _⟩ <;> rfl

instance : LawfulMonad Render :=
  LawfulMonad.mk' Render bind_pure_run (fun _ _ => rfl) bind_bind_run

def fail (e : RenderError) : Render α := fun store => (.failed e, store)

/-- Ends the render because no steps are left. -/
def exhausted : Render α := fun store => (.exhausted, store)

def look (view : Store → α) : Render α := fun store => (.done (view store), store)

def update (change : Store → Store) : Render Unit := fun store => (.done (), change store)

def take (change : Store → α × Store) : Render α := fun store =>
  let (a, store) := change store
  (.done a, store)

/-- Puts another failure in place of a failure. -/
def mapError (change : RenderError → RenderError) (action : Render α) : Render α := fun store =>
  match action store with
  | (.failed e, store) => (.failed (change e), store)
  | result => result

/-- Returns a value in place of a failure. -/
def recover (handle : RenderError → α) (action : Render α) : Render α := fun store =>
  match action store with
  | (.failed e, store) => (.done (handle e), store)
  | result => result

def note (diagnostic : Diagnostic) : Render Unit := update (·.note diagnostic)

def ofOption (e : RenderError) : Option α → Render α
  | some a => pure a
  | none => fail e

/-- The texts that an action gives for items, one after another. -/
def concat (action : β → Render String) (items : List β) : Render String :=
  go "" items
where
  go (soFar : String) : List β → Render String
    | [] => pure soFar
    | item :: rest => do
      let text ← action item
      go (soFar ++ text) rest

theorem concat_go (action : β → Render String) (soFar : String) (items : List β) :
    concat.go action soFar items = (soFar ++ ·) <$> concat action items := by
  unfold concat
  induction items generalizing soFar with
  | nil => simp [concat.go]
  | cons item rest ih =>
      simp only [concat.go, map_bind]
      congr 1
      funext text
      rw [ih (soFar ++ text), ih ("" ++ text), Functor.map_map]
      simp only [String.empty_append, String.append_assoc]

theorem concat_cons (action : β → Render String) (item : β) (rest : List β) :
    concat action (item :: rest) =
      action item >>= fun text => (text ++ ·) <$> concat action rest := by
  unfold concat
  simp only [concat.go, String.empty_append]
  congr 1
  funext text
  exact concat_go action text rest

theorem concat_single (action : β → Render String) (item : β) :
    concat action [item] = action item := by
  unfold concat
  simp only [concat.go, String.empty_append, bind_pure]

theorem concat_append (action : β → Render String) (items more : List β) :
    concat action (items ++ more) =
      concat action items >>= fun text => (text ++ ·) <$> concat action more := by
  induction items with
  | nil => simp [concat, concat.go]
  | cons item rest ih =>
      rw [List.cons_append, concat_cons, concat_cons, ih, bind_bind_run]
      congr 1
      funext text
      rw [map_bind, bind_map_left]
      congr 1
      funext more
      rw [Functor.map_map]
      simp only [String.append_assoc]

/-- Writes a page with a pen of its own. However that ends, the pen before it is
taken up again. -/
def withPen (action : Render α) : Render α := fun store =>
  let (outcome, after) := action { store with pen := {} }
  (outcome, { after with pen := store.pen })

/-- Does something inside a frame. However that ends, the frame is left. -/
def withFrame (frame : Frame) (action : Render α) : Render α := fun store =>
  let (outcome, after) := action (store.enter frame)
  (outcome, { after with frames := store.frames })

theorem withFrame_run (frame : Frame) (action : Render α) (store : Store) :
    withFrame frame action store =
      ((action (store.enter frame)).1,
        { (action (store.enter frame)).2 with frames := store.frames }) := rfl

def resolve (v : Value) : Render Value := do
  let resolution := v.resolve
  update (·.tally resolution.tally)
  return resolution.value

end Render

/-- Which results of earlier work are kept and used again. -/
structure Reuse where
  /-- Templates keep the programs of their blocks. -/
  programs : Bool := true
  /-- Registries keep compiled partials in place of their sources. -/
  partials : Bool := true

/-- What the nodes of a program see. -/
structure Scene where
  frame : Frame
  this : Value
  scope : Value
  data : Option Value
  depths : List Value
  /-- What the helper was called with, in the body of a helper. -/
  options : Option HelperOptions

/-- A piece of work that gives a text. -/
inductive Task where
  | nodes (scene : Scene) (nodes : List Node)
  | template (template : Template) (context : Value) (options : RenderOptions)
  | page (page : Page) (elements : List Source.Element)

abbrev Worker := Task → Render String

end Stencil
