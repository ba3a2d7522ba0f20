import Stencil.Render.Nodes
import Stencil.Render.Page

/-!
Carrying tasks out. A task leads to further tasks, and what bounds that chain
is not its shape alone: partials may refer to each other in a circle, and only
the settings end that. So a run is granted a number of levels. Rendering ends
within some number of levels or never, and a greater number then makes no
difference.
-/

namespace Stencil

/-- The text of what the template of a frame renders, for a context. -/
def Frame.render (frame : Frame) (worker : Worker) (context : Value) : Render String :=
  match frame.template.spec with
  | .nodes nodes => worker (.nodes ⟨frame, context, context, frame.options.data, [], none⟩ nodes)
  | .page elements => Page.render worker frame elements context

/-- The text of a template for a context, unless too many partials are open. -/
def Template.render (template : Template) (worker : Worker) (context : Value)
    (options : RenderOptions) : Render String :=
  let limit := template.environment.settings.maxPartialDepth
  if limit < options.depth then do
    Render.note (.depthExceeded options.depth limit)
    Render.fail (.resourceLimit "partial_depth"
      ("Partial nesting depth " ++ Text.numeral options.depth ++ " exceeds limit of " ++
        Text.numeral limit))
  else do
    Render.note (.rendering options.depth)
    let frame : Frame := ⟨template, options⟩
    Render.withFrame frame (frame.render worker context)

namespace Task

/-- One level of a task; what it leads to is left to the worker. -/
def step (reuse : Reuse) (worker : Worker) : Task → Render String
  | .nodes scene list => Render.concat (scene.node reuse worker) list
  | .template subject context options => subject.render worker context options
  | .page subject elements => Render.concat (subject.renderElement reuse worker) elements

/-- Carries a task out with so many levels granted. -/
def run (reuse : Reuse) : Nat → Task → Render String
  | 0, _ => Render.exhausted
  | levels + 1, task => step reuse (run reuse levels) task

end Task

/-- The levels granted to a render. No render that a machine can hold has as
many open at once. -/
def Render.levels : Nat := 1000000

/-- Renders a template for a context. -/
def Template.renderWith (template : Template) (context : Value) (options : RenderOptions) :
    Render String :=
  Task.run {} Render.levels (.template template context options)

/-- Renders a program in a render that is under way. -/
def Program.renderWith (program : Program) (frame : Frame) (context : Value)
    (data : Option Value) : Render String :=
  program.render (Task.run {} Render.levels) frame context data

/-- Renders what was found under the name of a partial in a registry. -/
def Partial.renderWith (entry : Option Partial) (name : String) (context : Value)
    (options : RenderOptions) (registry : Nat) (environment : Environment) : Render String :=
  Render.invokePartial {} (Task.run {} Render.levels) entry name context options registry
    environment

end Stencil
