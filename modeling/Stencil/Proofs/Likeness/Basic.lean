import Stencil.Render.Basic

/-!
Renders held side by side. A likeness says which two stores stand for each
other. What is known about them grows while rendering goes on, so a likeness
speaks of worlds: a world holds what is known at one point of two renders, and
it only ever grows. Two renders are alike when from stores that are alike they
end in the same way, with stores that are alike again. A lenient likeness asks
that only of renders that give something on the left.
-/

namespace Stencil

variable {World α β γ δ : Type}

/-- When two stores stand for each other, in a world of things known. -/
structure Likeness (World : Type) where
  grows : World → World → Prop
  stores : World → Store → Store → Prop
  grows_refl : ∀ w, grows w w
  grows_trans : ∀ {w₁ w₂ w₃}, grows w₁ w₂ → grows w₂ w₃ → grows w₁ w₃
  /-- Whether anything may stand beside a render that gives nothing. -/
  lenient : Prop := False

namespace Likeness

variable (like : Likeness World) {w w' : World}

/-- Two ends of renders that were begun in a world: both give values that stand
for each other, both fail alike, or both run out of steps; or the first one
gives nothing, and that is enough. -/
inductive Ends (w : World) (values : World → α → β → Prop) :
    Outcome α × Store → Outcome β × Store → Prop
  | done {w' : World} {a : α} {b : β} {s t : Store} (grown : like.grows w w')
      (value : values w' a b) (store : like.stores w' s t) :
      Ends w values (.done a, s) (.done b, t)
  | failed {w' : World} {s t : Store} (e : RenderError) (grown : like.grows w w')
      (store : like.stores w' s t) :
      Ends w values (.failed e, s) (.failed e, t)
  | exhausted {w' : World} {s t : Store} (grown : like.grows w w')
      (store : like.stores w' s t) :
      Ends w values (.exhausted, s) (.exhausted, t)
  | nothing {x : Outcome α × Store} {y : Outcome β × Store} (lenient : like.lenient)
      (gives : ∀ a, x.1 ≠ .done a) : Ends w values x y

/-- Two renders that end alike whenever they are begun alike. -/
def Alike (w : World) (values : World → α → β → Prop) (a : Render α) (b : Render β) : Prop :=
  ∀ s t, like.stores w s t → like.Ends w values (a s) (b t)

/-- Renders that are alike and give the same. -/
abbrev Same (w : World) (a b : Render α) : Prop :=
  like.Alike w (fun _ => Eq) a b

variable {like}

theorem Ends.earlier {values : World → α → β → Prop} {x : Outcome α × Store}
    {y : Outcome β × Store} (hgrown : like.grows w w') (h : like.Ends w' values x y) :
    like.Ends w values x y := by
  cases h with
  | done grown value store => exact .done (like.grows_trans hgrown grown) value store
  | failed e grown store => exact .failed e (like.grows_trans hgrown grown) store
  | exhausted grown store => exact .exhausted (like.grows_trans hgrown grown) store
  | nothing lenient gives => exact .nothing lenient gives

/-- The outcomes of renders that give the same are equal. -/
theorem Ends.outcome_eq {x y : Outcome α × Store} (h : like.Ends w (fun _ => Eq) x y)
    (strict : ¬ like.lenient) : x.1 = y.1 := by
  cases h with
  | done _ value _ => exact congrArg Outcome.done value
  | failed _ _ _ => rfl
  | exhausted _ _ => rfl
  | nothing lenient _ => exact absurd lenient strict

/-- The stores after renders that are alike stand for each other. -/
theorem Ends.stores_alike {values : World → α → β → Prop} {x : Outcome α × Store}
    {y : Outcome β × Store} (h : like.Ends w values x y) (strict : ¬ like.lenient) :
    ∃ w', like.grows w w' ∧ like.stores w' x.2 y.2 := by
  cases h with
  | done grown _ store => exact ⟨_, grown, store⟩
  | failed _ grown store => exact ⟨_, grown, store⟩
  | exhausted grown store => exact ⟨_, grown, store⟩
  | nothing lenient _ => exact absurd lenient strict

/-- A render that gives something stands beside one that gives the same. -/
theorem Ends.of_done {a : α} {s : Store} {y : Outcome α × Store}
    (h : like.Ends w (fun _ => Eq) (.done a, s) y) :
    ∃ w' t, like.grows w w' ∧ y = (.done a, t) ∧ like.stores w' s t := by
  cases h with
  | done grown value store => exact ⟨_, _, grown, by rw [value], store⟩
  | nothing _ gives => exact absurd rfl (gives a)

theorem pure_alike {values : World → α → β → Prop} {x : α} {y : β} (h : values w x y) :
    like.Alike w values (pure x) (pure y) :=
  fun _ _ hstores => .done (like.grows_refl w) h hstores

/-- What fails on the left is lenient about what stands beside it. -/
theorem fail_lenient {values : World → α → β → Prop} (lenient : like.lenient) (e : RenderError)
    (b : Render β) : like.Alike w values (Render.fail e) b :=
  fun _ _ _ => .nothing lenient fun _ h => nomatch h

theorem refuse_lenient {values : World → α → β → Prop} (lenient : like.lenient)
    (diagnostic : Diagnostic) (e : RenderError) (b : Render β) :
    like.Alike w values (Render.note diagnostic >>= fun _ => Render.fail e) b :=
  fun _ _ _ => .nothing lenient fun _ h => nomatch h

theorem fail_alike {values : World → α → β → Prop} (e : RenderError) :
    like.Alike w values (Render.fail e) (Render.fail e) :=
  fun _ _ hstores => .failed e (like.grows_refl w) hstores

theorem exhausted_alike {values : World → α → β → Prop} :
    like.Alike w values Render.exhausted Render.exhausted :=
  fun _ _ hstores => .exhausted (like.grows_refl w) hstores

/-- Renders that go on alike from whatever they gave are alike as a whole. -/
theorem bind_alike {values : World → α → β → Prop} {values' : World → γ → δ → Prop}
    {a : Render α} {b : Render β} {f : α → Render γ} {g : β → Render δ}
    (h : like.Alike w values a b)
    (hnext : ∀ w', like.grows w w' → ∀ x y, values w' x y → like.Alike w' values' (f x) (g y)) :
    like.Alike w values' (a >>= f) (b >>= g) := by
  intro s t hstores
  have hends := h s t hstores
  rw [Render.bind_run, Render.bind_run]
  generalize a s = x at hends
  generalize b t = y at hends
  cases hends with
  | done grown value store => exact (hnext _ grown _ _ value _ _ store).earlier grown
  | failed e grown store => exact .failed e grown store
  | exhausted grown store => exact .exhausted grown store
  | nothing lenient gives =>
      refine .nothing lenient ?_
      obtain ⟨outcome, after⟩ := x
      cases outcome with
      | done a => exact absurd rfl (gives a)
      | failed e => exact fun c h => nomatch h
      | exhausted => exact fun c h => nomatch h

theorem map_alike {values : World → α → β → Prop} {values' : World → γ → δ → Prop}
    {a : Render α} {b : Render β} {f : α → γ} {g : β → δ} (h : like.Alike w values a b)
    (hmap : ∀ w', like.grows w w' → ∀ x y, values w' x y → values' w' (f x) (g y)) :
    like.Alike w values' (f <$> a) (g <$> b) :=
  bind_alike h fun w' grown x y value => pure_alike (hmap w' grown x y value)

/-- What depends on a store in the same way on both sides gives the same. -/
theorem look_alike {values : World → α → β → Prop} {view : Store → α} {view' : Store → β}
    (h : ∀ s t, like.stores w s t → values w (view s) (view' t)) :
    like.Alike w values (Render.look view) (Render.look view') :=
  fun s t hstores => .done (like.grows_refl w) (h s t hstores) hstores

theorem update_alike {change change' : Store → Store}
    (h : ∀ s t, like.stores w s t → like.stores w (change s) (change' t)) :
    like.Same w (Render.update change) (Render.update change') :=
  fun s t hstores => .done (like.grows_refl w) rfl (h s t hstores)

theorem ofOption_alike (e : RenderError) (x : Option α) :
    like.Same w (Render.ofOption e x) (Render.ofOption e x) := by
  cases x with
  | none => exact fail_alike e
  | some a => exact pure_alike rfl

theorem mapError_alike {values : World → α → β → Prop} {a : Render α} {b : Render β}
    (change : RenderError → RenderError) (h : like.Alike w values a b) :
    like.Alike w values (a.mapError change) (b.mapError change) := by
  intro s t hstores
  have hends := h s t hstores
  unfold Render.mapError
  generalize a s = x at hends
  generalize b t = y at hends
  cases hends with
  | done grown value store => exact .done grown value store
  | failed e grown store => exact .failed (change e) grown store
  | exhausted grown store => exact .exhausted grown store
  | nothing lenient gives =>
      refine .nothing lenient ?_
      obtain ⟨outcome, after⟩ := x
      cases outcome with
      | done a => exact absurd rfl (gives a)
      | failed e => exact fun c h => nomatch h
      | exhausted => exact fun c h => nomatch h

theorem recover_alike {a b : Render α} (strict : ¬ like.lenient) (handle : RenderError → α)
    (h : like.Same w a b) : like.Same w (a.recover handle) (b.recover handle) := by
  intro s t hstores
  have hends := h s t hstores
  unfold Render.recover
  generalize a s = x at hends
  generalize b t = y at hends
  cases hends with
  | done grown value store => exact .done grown value store
  | failed e grown store => exact .done grown rfl store
  | exhausted grown store => exact .exhausted grown store
  | nothing lenient _ => exact absurd lenient strict

/-- Texts of the same items, one after another. What has to hold of the items
in a world holds in every world after it. -/
theorem concat_alike {action action' : γ → Render String} (items : List γ)
    (h : ∀ w', like.grows w w' → ∀ item ∈ items, like.Same w' (action item) (action' item)) :
    like.Same w (Render.concat action items) (Render.concat action' items) := by
  suffices hgo : ∀ soFar, like.Same w (Render.concat.go action soFar items)
      (Render.concat.go action' soFar items) from hgo ""
  induction items generalizing w with
  | nil => exact fun soFar => pure_alike rfl
  | cons item rest ih =>
      intro soFar
      simp only [Render.concat.go]
      apply bind_alike (h w (like.grows_refl w) item List.mem_cons_self)
      rintro w' grown text _ rfl
      refine ih (fun w'' grown' other member => ?_) (soFar ++ text)
      exact h w'' (like.grows_trans grown grown') other (List.mem_cons_of_mem _ member)

theorem mapM_alike {action action' : γ → Render α} (items : List γ)
    (h : ∀ w', like.grows w w' → ∀ item ∈ items, like.Same w' (action item) (action' item)) :
    like.Same w (items.mapM action) (items.mapM action') := by
  induction items generalizing w with
  | nil => exact pure_alike rfl
  | cons item rest ih =>
      rw [List.mapM_cons, List.mapM_cons]
      apply bind_alike (h w (like.grows_refl w) item List.mem_cons_self)
      rintro w' grown a _ rfl
      have hrest : like.Same w' (rest.mapM action) (rest.mapM action') :=
        ih fun w'' grown' other member =>
          h w'' (like.grows_trans grown grown') other (List.mem_cons_of_mem _ member)
      apply bind_alike hrest
      rintro w'' _ as _ rfl
      exact pure_alike rfl

end Likeness

end Stencil
