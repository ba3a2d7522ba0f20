import Stencil.Template

/-!
What programs are allowed to do. A licence holds for every node of a program,
for the bodies of all its blocks and for all that is written inside its
expressions. It says which block may be requested under which number, whether
programs may be told apart or counted, whether settings and options may be
shown, and whether failures may be handled.
-/

namespace Stencil

/-- What the nodes of a program may do. -/
structure Licence where
  /-- Whether a block may be requested under a number. -/
  requests : Nat → List Node → Prop
  /-- Whether two programs may be compared. -/
  compares : Prop
  /-- Whether the programs that a template keeps may be counted. -/
  counts : Prop
  /-- Whether the settings of the environment may be shown. -/
  settings : Prop
  /-- Whether the options of the render may be shown. -/
  options : Prop
  /-- Whether failures may be handled. -/
  handles : Prop

namespace Licence

def free : Licence := ⟨fun _ _ => True, True, True, True, True, True⟩

/-- Each number is used for one block. -/
def uniform (blocks : Nat → List Node) (compares counts : Prop) : Licence :=
  ⟨fun index body => body = blocks index, compares, counts, True, True, True⟩

variable (licence : Licence)

mutual
def AllowsExpr : Expr → Prop
  | .resolved e | .field e _ | .safe e => AllowsExpr e
  | .rendered nodes => AllowsNodes nodes
  | _ => True
termination_by structural e => e

def AllowsExprs : List Expr → Prop
  | [] => True
  | e :: rest => AllowsExpr e ∧ AllowsExprs rest
termination_by structural es => es

def AllowsExpr? : Option Expr → Prop
  | none => True
  | some e => AllowsExpr e
termination_by structural e => e

def AllowsProgram : ProgramExpr → Prop
  | .cached index body data =>
    licence.requests index body ∧ AllowsNodes body ∧ AllowsExpr? data
  | .nested body data depths => AllowsNodes body ∧ AllowsExpr? data ∧ AllowsExprs depths
  | .plain body data => AllowsNodes body ∧ AllowsExpr? data
  | _ => True
termination_by structural p => p

def AllowsProgram? : Option ProgramExpr → Prop
  | none => True
  | some p => AllowsProgram p
termination_by structural p => p

def AllowsOptions : OptionsExpr → Prop
  | .mk _ block inverse data _ =>
    AllowsProgram? block ∧ AllowsProgram? inverse ∧ AllowsExpr? data
termination_by structural o => o

def AllowsNode : Node → Prop
  | .escaped e | .plain e | .outlined e | .inclusion _ e | .renderBlock e | .renderInverse e =>
    AllowsExpr e
  | .call _ e o | .valueBlock e o | .negated _ e o => AllowsExpr e ∧ AllowsOptions o
  | .run p e d => AllowsProgram p ∧ AllowsExpr e ∧ AllowsExpr? d
  | .missing _ o | .missingBlock _ o | .outlinedOptions o => AllowsOptions o
  | .same p q => licence.compares ∧ AllowsProgram p ∧ AllowsProgram q
  | .cachedCount => licence.counts
  | .settings => licence.settings
  | .renderOptions => licence.options
  | .renderBlockWith e d => AllowsExpr e ∧ AllowsExpr d
  | .ifTruthy e yes no => AllowsExpr e ∧ AllowsNodes yes ∧ AllowsNodes no
  | .ifShallow _ yes no => AllowsNodes yes ∧ AllowsNodes no
  | .attempt nodes => licence.handles ∧ AllowsNodes nodes
  | _ => True
termination_by structural n => n

def AllowsNodes : List Node → Prop
  | [] => True
  | n :: rest => AllowsNode n ∧ AllowsNodes rest
termination_by structural ns => ns
end

/-- A helper, and its negation if it has one, may be called. -/
def AllowsAction : Action → Prop
  | .builtin _ => True
  | .nodes body => licence.AllowsNodes body

def AllowsHelper (helper : Helper) : Prop :=
  licence.AllowsAction helper.action ∧ ∀ action ∈ helper.negation, licence.AllowsAction action

/-- A template may render this. Sources request no programs. -/
def AllowsSpec : Spec → Prop
  | .nodes nodes => licence.AllowsNodes nodes
  | .page _ => True

variable {licence}

theorem allowsNodes_iff {nodes : List Node} :
    licence.AllowsNodes nodes ↔ ∀ node ∈ nodes, licence.AllowsNode node := by
  induction nodes with
  | nil => simp [AllowsNodes]
  | cons node rest ih => simp [AllowsNodes, ih]

theorem allowsExprs_iff {es : List Expr} :
    licence.AllowsExprs es ↔ ∀ e ∈ es, licence.AllowsExpr e := by
  induction es with
  | nil => simp [AllowsExprs]
  | cons e rest ih => simp [AllowsExprs, ih]

mutual
theorem free_allowsExpr : ∀ e : Expr, free.AllowsExpr e
  | .this _ | .scope _ | .data _ | .ancestor _ _ | .optionsData _ | .literal _ | .hasData
  | .nesting | .missingValue _ => trivial
  | .resolved e | .field e _ | .safe e => free_allowsExpr e
  | .rendered nodes => free_allowsNodes nodes
termination_by structural e => e

theorem free_allowsExprs : ∀ es : List Expr, free.AllowsExprs es
  | [] => trivial
  | e :: rest => ⟨free_allowsExpr e, free_allowsExprs rest⟩
termination_by structural es => es

theorem free_allowsExpr? : ∀ e : Option Expr, free.AllowsExpr? e
  | none => trivial
  | some e => free_allowsExpr e
termination_by structural e => e

theorem free_allowsProgram : ∀ p : ProgramExpr, free.AllowsProgram p
  | .cached _ body data => ⟨trivial, free_allowsNodes body, free_allowsExpr? data⟩
  | .nested body data depths =>
    ⟨free_allowsNodes body, free_allowsExpr? data, free_allowsExprs depths⟩
  | .plain body data => ⟨free_allowsNodes body, free_allowsExpr? data⟩
  | .noop | .block | .inverse => trivial
termination_by structural p => p

theorem free_allowsProgram? : ∀ p : Option ProgramExpr, free.AllowsProgram? p
  | none => trivial
  | some p => free_allowsProgram p
termination_by structural p => p

theorem free_allowsOptions : ∀ o : OptionsExpr, free.AllowsOptions o
  | .mk _ block inverse data _ =>
    ⟨free_allowsProgram? block, free_allowsProgram? inverse, free_allowsExpr? data⟩
termination_by structural o => o

theorem free_allowsNode : ∀ n : Node, free.AllowsNode n
  | .text _ | .budget _ | .log _ _ | .fail _ _ | .cachedCount | .hasHelper _ | .renderOptions
  | .settings | .isBlock => trivial
  | .escaped e | .plain e | .outlined e | .inclusion _ e | .renderBlock e | .renderInverse e =>
    free_allowsExpr e
  | .call _ e o | .valueBlock e o | .negated _ e o => ⟨free_allowsExpr e, free_allowsOptions o⟩
  | .run p e d => ⟨free_allowsProgram p, free_allowsExpr e, free_allowsExpr? d⟩
  | .missing _ o | .missingBlock _ o | .outlinedOptions o => free_allowsOptions o
  | .same p q => ⟨trivial, free_allowsProgram p, free_allowsProgram q⟩
  | .renderBlockWith e d => ⟨free_allowsExpr e, free_allowsExpr d⟩
  | .ifTruthy e yes no => ⟨free_allowsExpr e, free_allowsNodes yes, free_allowsNodes no⟩
  | .ifShallow _ yes no => ⟨free_allowsNodes yes, free_allowsNodes no⟩
  | .attempt nodes => ⟨trivial, free_allowsNodes nodes⟩
termination_by structural n => n

/-- Nothing is forbidden by the licence that allows everything. -/
theorem free_allowsNodes : ∀ ns : List Node, free.AllowsNodes ns
  | [] => trivial
  | n :: rest => ⟨free_allowsNode n, free_allowsNodes rest⟩
termination_by structural ns => ns
end

theorem free_allowsHelper (helper : Helper) : free.AllowsHelper helper := by
  have haction : ∀ action, free.AllowsAction action := by
    intro action
    cases action with
    | builtin _ => trivial
    | nodes body => exact free_allowsNodes body
  exact ⟨haction helper.action, fun action _ => haction action⟩

theorem free_allowsSpec (spec : Spec) : free.AllowsSpec spec := by
  cases spec with
  | nodes nodes => exact free_allowsNodes nodes
  | page _ => trivial

end Licence

end Stencil
