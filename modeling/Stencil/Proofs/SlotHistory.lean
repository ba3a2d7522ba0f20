import Mathlib.Data.Finset.Card
import Mathlib.Data.Finset.Dedup
import Stencil.Render.Helpers

/-!
Slots over whole histories. Blocks are requested one after another, under any
numbers and in any order, and other programs are made in between. A request
without data of its own gets the program that the slot keeps, which is the one
made for the first such request; a request with truthy data gets a program of
its own. What holds after each request is one invariant, and the facts about a
whole history are read off it. They are facts about slots in a row, too, since a
row serves every history as the table does.
-/

namespace Stencil

/-- A program that was made of this block, with this data and no contexts. -/
structure Program.Wraps (program : Program) (body : List Node) (data : Option Value) : Prop where
  body : program.body = body
  data : program.data = data
  depths : program.depths = []

namespace Slots

section

variable {slots : Slots} {index : Nat} {data : Option Value}

theorem request_own {d : Value} (given : data.filter Value.isTruthy = some d) (fresh : Nat)
    (body : List Node) :
    slots.request fresh index body data = ⟨⟨fresh, body, some d, []⟩, slots, fresh + 1, false⟩ := by
  simp only [request, given]

theorem request_filled {program : Program} (without : data.filter Value.isTruthy = none)
    (found : slots.get? index = some program) (fresh : Nat) (body : List Node) :
    slots.request fresh index body data = ⟨program, slots, fresh, false⟩ := by
  simp only [request, without, found]

theorem request_fills (without : data.filter Value.isTruthy = none)
    (empty : slots.get? index = none) (fresh : Nat) (body : List Node) :
    slots.request fresh index body data =
      ⟨⟨fresh, body, none, []⟩, slots.set index ⟨fresh, body, none, []⟩, fresh + 1, true⟩ := by
  simp only [request, without, empty]

end

/-- A request for the program of a block, after so many programs were made
elsewhere. -/
structure Request where
  index : Nat
  body : List Node
  data : Option Value
  elsewhere : Nat := 0

namespace Request

/-- The data that the request comes with, if it counts. -/
def own? (request : Request) : Option Value := request.data.filter Value.isTruthy

/-- A request without data that counts, for the program that a slot keeps. -/
def IsPlain (request : Request) : Prop := request.own? = none

instance (request : Request) : Decidable request.IsPlain :=
  decidable_of_iff (request.own?.isNone = true) Option.isNone_iff_eq_none

theorem plain_or_own (request : Request) :
    request.IsPlain ∨ ∃ d, request.own? = some d := by
  unfold IsPlain
  cases request.own? with
  | none => exact .inl rfl
  | some d => exact .inr ⟨d, rfl⟩

end Request

/-- The plain requests for a number, the first one of them, and the numbers that
were requested plainly. -/
def plainAt (index : Nat) (request : Request) : Bool :=
  decide (request.IsPlain ∧ request.index = index)

def first? (requests : List Request) (index : Nat) : Option Request :=
  requests.find? (plainAt index)

def plainIndices (requests : List Request) : List Nat :=
  (requests.filter fun request => decide request.IsPlain).map (·.index)

/-- Slots, the identity for the next new program, and what was requested so far
with the program that each request got. -/
structure History where
  slots : Slots := .empty
  fresh : Nat := 0
  served : List (Request × Program) := []

/-- The history with one more request. -/
def History.next (history : History) (request : Request) : History :=
  let answer := history.slots.request (history.fresh + request.elsewhere) request.index
    request.body request.data
  ⟨answer.slots, answer.fresh, history.served ++ [(request, answer.program)]⟩

/-- The history of requests to slots that are empty at first. -/
def serve (fresh : Nat) (requests : List Request) : History :=
  requests.foldl History.next { fresh }

theorem serve_append (fresh : Nat) (requests later : List Request) :
    serve fresh (requests ++ later) = later.foldl History.next (serve fresh requests) :=
  List.foldl_append

section

variable {requests : List Request} {request : Request} {index : Nat}

theorem first?_append_own (hown : ¬ request.IsPlain) :
    first? (requests ++ [request]) index = first? requests index := by
  have hnot : plainAt index request = false := decide_eq_false fun h => hown h.1
  unfold first?
  rw [List.find?_append, List.find?_singleton, hnot]
  simp

theorem first?_append_of_isSome (h : (first? requests index).isSome = true) :
    first? (requests ++ [request]) index = first? requests index := by
  unfold first? at h ⊢
  rw [List.find?_append, Option.or_of_isSome h]

theorem first?_append_self (hplain : request.IsPlain)
    (h : first? requests request.index = none) :
    first? (requests ++ [request]) request.index = some request := by
  have hself : plainAt request.index request = true := decide_eq_true ⟨hplain, rfl⟩
  unfold first? at h ⊢
  rw [List.find?_append, h, List.find?_singleton, hself]
  simp

theorem first?_append_ne (hindex : index ≠ request.index) :
    first? (requests ++ [request]) index = first? requests index := by
  have hnot : plainAt index request = false := decide_eq_false fun h => hindex h.2.symm
  unfold first?
  rw [List.find?_append, List.find?_singleton, hnot]
  simp

theorem isSome_first?_iff : (first? requests index).isSome = true ↔
    index ∈ plainIndices requests := by
  unfold first? plainIndices plainAt
  simp only [List.find?_isSome, List.mem_map, List.mem_filter, decide_eq_true_eq, and_assoc]

end

/-- How slots stand after requests: each slot that was requested plainly keeps
the program of the first such request, and no two slots keep one program. -/
structure Stands (slots : Slots) (fresh : Nat) (requests : List Request) : Prop where
  kept : ∀ index, Option.Rel (fun (program : Program) (first : Request) =>
    program.Wraps first.body none) (slots.get? index) (first? requests index)
  numbered : (slots.entries.map Prod.fst).Nodup
  below : ∀ index program, slots.get? index = some program → program.identity < fresh
  apart : ∀ i j p q, slots.get? i = some p → slots.get? j = some q →
    p.identity = q.identity → i = j

namespace Stands

variable {slots : Slots} {fresh fresh' : Nat} {requests : List Request} {request : Request}
  {index : Nat}

theorem empty (fresh : Nat) : Stands .empty fresh [] where
  kept _ := .none
  numbered := List.nodup_nil
  below := by
    intro index program h
    cases h
  apart := by
    intro i j p q h
    cases h

theorem isSome_eq (h : slots.Stands fresh requests) (index : Nat) :
    (slots.get? index).isSome = (first? requests index).isSome := by
  have hkept := h.kept index
  generalize slots.get? index = found at hkept
  generalize first? requests index = first at hkept
  cases hkept with
  | none => rfl
  | some _ => rfl

/-- What a slot keeps was made for the first plain request of its number. -/
theorem first (h : slots.Stands fresh requests) {program : Program}
    (hfound : slots.get? index = some program) :
    ∃ first, first? requests index = some first ∧ program.Wraps first.body none := by
  have hkept := h.kept index
  rw [hfound] at hkept
  generalize first? requests index = first at hkept
  cases hkept with
  | some hwraps => exact ⟨_, rfl, hwraps⟩

theorem later (h : slots.Stands fresh requests) (hfresh : fresh ≤ fresh') :
    slots.Stands fresh' requests :=
  { h with below := fun i p hget => Nat.lt_of_lt_of_le (h.below i p hget) hfresh }

/-- A request that fills no slot leaves them standing as they were. -/
theorem unfilled (h : slots.Stands fresh requests)
    (hfilled : request.IsPlain → (slots.get? request.index).isSome = true) :
    slots.Stands fresh (requests ++ [request]) where
  kept := by
    intro index
    have hsame : first? (requests ++ [request]) index = first? requests index := by
      by_cases hplain : request.IsPlain
      · by_cases hindex : index = request.index
        · rw [hindex, first?_append_of_isSome]
          rw [← h.isSome_eq]
          exact hfilled hplain
        · exact first?_append_ne hindex
      · exact first?_append_own hplain
    rw [hsame]
    exact h.kept index
  numbered := h.numbered
  below := h.below
  apart := h.apart

/-- A plain request fills an empty slot with a program of its own. -/
theorem filled (h : slots.Stands fresh requests) (hplain : request.IsPlain)
    (hempty : slots.get? request.index = none) :
    Slots.Stands (slots.set request.index ⟨fresh, request.body, none, []⟩) (fresh + 1)
      (requests ++ [request]) := by
  have hget : ∀ i p, (slots.set request.index ⟨fresh, request.body, none, []⟩).get? i = some p →
      i = request.index ∧ p = ⟨fresh, request.body, none, []⟩ ∨
        i ≠ request.index ∧ slots.get? i = some p := by
    intro i p hset
    by_cases hi : i = request.index
    · rw [hi, Table.get?_set_self] at hset
      exact .inl ⟨hi, (Option.some.inj hset).symm⟩
    · rw [Table.get?_set_ne _ _ hi] at hset
      exact .inr ⟨hi, hset⟩
  have hfirst : first? requests request.index = none := by
    rw [← Option.not_isSome_iff_eq_none, ← h.isSome_eq, hempty]
    simp
  refine ⟨?_, ?_, ?_, ?_⟩
  · intro index
    by_cases hindex : index = request.index
    · rw [hindex, Table.get?_set_self, first?_append_self hplain hfirst]
      exact .some ⟨rfl, rfl, rfl⟩
    · rw [Table.get?_set_ne _ _ hindex, first?_append_ne hindex]
      exact h.kept index
  · have hnew : request.index ∉ slots.entries.map Prod.fst := by
      rw [← Table.isSome_entryAt_iff]
      unfold Table.get? at hempty
      simp [hempty]
    unfold Table.set
    rw [Table.setEntry_of_entryAt_none _ hempty, List.map_append]
    refine List.nodup_append.mpr ⟨h.numbered, List.nodup_singleton _, ?_⟩
    rintro i hi _ hj rfl
    have hsame : i = request.index := List.mem_singleton.mp hj
    exact hnew (hsame ▸ hi)
  · intro i p hset
    rcases hget i p hset with ⟨_, rfl⟩ | ⟨_, hold⟩
    · exact Nat.lt_succ_self fresh
    · exact Nat.lt_succ_of_lt (h.below i p hold)
  · intro i j p q hp hq hsame
    rcases hget i p hp with ⟨hi, rfl⟩ | ⟨_, hp⟩
    · rcases hget j q hq with ⟨hj, rfl⟩ | ⟨_, hq⟩
      · rw [hi, hj]
      · have := h.below j q hq
        simp only at hsame
        omega
    · rcases hget j q hq with ⟨hj, rfl⟩ | ⟨_, hq⟩
      · have := h.below i p hp
        simp only at hsame
        omega
      · exact h.apart i j p q hp hq hsame

/-- How many slots are filled is how many numbers were requested plainly. -/
theorem size_eq (h : slots.Stands fresh requests) :
    slots.size = (plainIndices requests).toFinset.card := by
  have hsame : (slots.entries.map Prod.fst).toFinset = (plainIndices requests).toFinset := by
    ext index
    rw [List.mem_toFinset, List.mem_toFinset, ← Table.isSome_entryAt_iff, ← isSome_first?_iff,
      ← h.isSome_eq]
    rfl
  rw [← hsame, List.toFinset_card_of_nodup h.numbered, List.length_map]
  rfl

end Stands

namespace History

/-- What requests got: a plain one what its slot keeps, and any other one a
program of its own. -/
structure Sound (requests : List Request) (history : History) : Prop where
  served : history.served.map Prod.fst = requests
  stands : history.slots.Stands history.fresh requests
  plain : ∀ pair ∈ history.served, pair.1.IsPlain →
    history.slots.get? pair.1.index = some pair.2
  own : ∀ pair ∈ history.served, ∀ d, pair.1.own? = some d → pair.2.Wraps pair.1.body (some d)
  below : ∀ pair ∈ history.served, pair.2.identity < history.fresh
  unkept : ∀ pair ∈ history.served, ¬ pair.1.IsPlain → ∀ index program,
    history.slots.get? index = some program → pair.2.identity ≠ program.identity
  distinct : history.served.Pairwise fun first second =>
    ¬ first.1.IsPlain ∨ ¬ second.1.IsPlain → first.2.identity ≠ second.2.identity

theorem sound_empty (fresh : Nat) : Sound [] { fresh } where
  served := rfl
  stands := .empty fresh
  plain := by simp
  own := by simp
  below := by simp
  unkept := by simp
  distinct := .nil

/-- A new pair at the end of what was served. -/
theorem forall_served {served : List (Request × Program)} {request : Request} {program : Program}
    {P : Request × Program → Prop} (hold : ∀ pair ∈ served, P pair) (hnew : P (request, program)) :
    ∀ pair ∈ served ++ [(request, program)], P pair := by
  intro pair member
  rcases List.mem_append.mp member with hmember | hmember
  · exact hold pair hmember
  · rw [List.mem_singleton.mp hmember]
    exact hnew

namespace Sound

variable {requests : List Request} {history : History} {request : Request} {d : Value}
  {program : Program}

/-- A request with data of its own. -/
theorem next_own (h : Sound requests history) (given : request.own? = some d) :
    Sound (requests ++ [request]) (history.next request) := by
  have hown : ¬ request.IsPlain := by
    unfold Request.IsPlain
    simp [given]
  have hnext : history.next request = ⟨history.slots, history.fresh + request.elsewhere + 1,
      history.served ++
        [(request, ⟨history.fresh + request.elsewhere, request.body, some d, []⟩)]⟩ := by
    unfold next
    rw [request_own given]
  rw [hnext]
  refine ⟨?_, ?_, ?_, ?_, ?_, ?_, ?_⟩
  · rw [List.map_append, h.served]
    rfl
  · have hlater : history.fresh ≤ history.fresh + request.elsewhere + 1 := by omega
    exact (h.stands.later hlater).unfilled fun hplain => absurd hplain hown
  · exact forall_served h.plain fun hplain => absurd hplain hown
  · refine forall_served h.own fun d' hd' => ?_
    obtain rfl := Option.some.inj (given.symm.trans hd')
    exact ⟨rfl, rfl, rfl⟩
  · refine forall_served (fun pair member => ?_) ?_
    · have := h.below pair member
      simp only
      omega
    · exact Nat.lt_succ_self _
  · refine forall_served h.unkept fun _ index program hget => ?_
    have := h.stands.below index program hget
    simp only
    omega
  · rw [List.pairwise_append]
    refine ⟨h.distinct, List.pairwise_singleton _ _, ?_⟩
    intro pair member last hlast _
    have := h.below pair member
    rw [List.mem_singleton.mp hlast]
    simp only
    omega

/-- A plain request for a slot that is filled. -/
theorem next_filled (h : Sound requests history) (hplain : request.IsPlain)
    (hfound : history.slots.get? request.index = some program) :
    Sound (requests ++ [request]) (history.next request) := by
  have hnext : history.next request = ⟨history.slots, history.fresh + request.elsewhere,
      history.served ++ [(request, program)]⟩ := by
    unfold next
    rw [request_filled hplain hfound]
  rw [hnext]
  have hbelow := h.stands.below _ program hfound
  refine ⟨?_, ?_, ?_, ?_, ?_, ?_, ?_⟩
  · rw [List.map_append, h.served]
    rfl
  · exact (h.stands.later (Nat.le_add_right _ _)).unfilled fun _ =>
      Option.isSome_of_eq_some hfound
  · exact forall_served h.plain fun _ => hfound
  · refine forall_served h.own fun d hd => ?_
    cases hplain.symm.trans hd
  · refine forall_served (fun pair member => ?_) ?_
    · have := h.below pair member
      simp only
      omega
    · simp only
      omega
  · exact forall_served h.unkept fun hown => absurd hplain hown
  · rw [List.pairwise_append]
    refine ⟨h.distinct, List.pairwise_singleton _ _, ?_⟩
    intro pair member last hlast howns
    rw [List.mem_singleton.mp hlast] at howns ⊢
    rcases howns with hown | hown
    · exact h.unkept pair member hown _ program hfound
    · exact absurd hplain hown

/-- A plain request for a slot that is empty. -/
theorem next_fills (h : Sound requests history) (hplain : request.IsPlain)
    (hempty : history.slots.get? request.index = none) :
    Sound (requests ++ [request]) (history.next request) := by
  have hnext : history.next request =
      ⟨history.slots.set request.index
          ⟨history.fresh + request.elsewhere, request.body, none, []⟩,
        history.fresh + request.elsewhere + 1,
        history.served ++
          [(request, ⟨history.fresh + request.elsewhere, request.body, none, []⟩)]⟩ := by
    unfold next
    rw [request_fills hplain hempty]
  rw [hnext]
  refine ⟨?_, ?_, ?_, ?_, ?_, ?_, ?_⟩
  · rw [List.map_append, h.served]
    rfl
  · exact (h.stands.later (Nat.le_add_right _ _)).filled hplain hempty
  · refine forall_served (fun pair member hpair => ?_) fun _ => Table.get?_set_self _ _ _
    have hfound := h.plain pair member hpair
    have hindex : pair.1.index ≠ request.index := by
      intro hsame
      rw [hsame, hempty] at hfound
      cases hfound
    rw [Table.get?_set_ne _ _ hindex]
    exact hfound
  · refine forall_served h.own fun d hd => ?_
    cases hplain.symm.trans hd
  · refine forall_served (fun pair member => ?_) ?_
    · have := h.below pair member
      simp only
      omega
    · exact Nat.lt_succ_self _
  · refine forall_served (fun pair member hown index other hget => ?_) fun hown =>
      absurd hplain hown
    by_cases hindex : index = request.index
    · rw [hindex, Table.get?_set_self] at hget
      have := h.below pair member
      rw [← Option.some.inj hget]
      simp only
      omega
    · rw [Table.get?_set_ne _ _ hindex] at hget
      exact h.unkept pair member hown index other hget
  · rw [List.pairwise_append]
    refine ⟨h.distinct, List.pairwise_singleton _ _, ?_⟩
    intro pair member last hlast _
    have := h.below pair member
    rw [List.mem_singleton.mp hlast]
    simp only
    omega

theorem next (h : Sound requests history) (request : Request) :
    Sound (requests ++ [request]) (history.next request) := by
  rcases request.plain_or_own with hplain | ⟨d, given⟩
  · cases hget : history.slots.get? request.index with
    | none => exact h.next_fills hplain hget
    | some program => exact h.next_filled hplain hget
  · exact h.next_own given

/-- The invariant after any further requests. -/
theorem foldl (h : Sound requests history) (later : List Request) :
    Sound (requests ++ later) (later.foldl History.next history) := by
  induction later generalizing requests history with
  | nil =>
      rw [List.append_nil]
      exact h
  | cons request rest ih =>
      have hrest := ih (h.next request)
      rw [List.append_assoc] at hrest
      exact hrest

variable {r q : Request} {p o : Program} {i j : Nat}

/-- Plain requests of one number get one program. -/
theorem plain_eq (h : Sound requests history) (hi : history.served[i]? = some (r, p))
    (hj : history.served[j]? = some (q, o)) (hr : r.IsPlain) (hq : q.IsPlain)
    (hindex : r.index = q.index) : p = o := by
  have hp := h.plain _ (List.mem_of_getElem? hi) hr
  have ho := h.plain _ (List.mem_of_getElem? hj) hq
  simp only [hindex] at hp
  exact Option.some.inj (hp.symm.trans ho)

/-- A program that was made for one request with data goes to no other one. -/
theorem own_apart (h : Sound requests history) (hi : history.served[i]? = some (r, p))
    (hj : history.served[j]? = some (q, o)) (hr : ¬ r.IsPlain) (hdifferent : i ≠ j) :
    p.identity ≠ o.identity := by
  obtain ⟨hilt, hi⟩ := List.getElem?_eq_some_iff.mp hi
  obtain ⟨hjlt, hj⟩ := List.getElem?_eq_some_iff.mp hj
  have hpairs := List.pairwise_iff_getElem.mp h.distinct
  rcases Nat.lt_or_gt_of_ne hdifferent with hlt | hlt
  · have hapart := hpairs i j hilt hjlt hlt
    rw [hi, hj] at hapart
    exact hapart (.inl hr)
  · have hapart := hpairs j i hjlt hilt hlt
    rw [hi, hj] at hapart
    exact (hapart (.inr hr)).symm

theorem index_apart (h : Sound requests history) (hi : history.served[i]? = some (r, p))
    (hj : history.served[j]? = some (q, o)) (hindex : r.index ≠ q.index) :
    p.identity ≠ o.identity := by
  have hdifferent : i ≠ j := by
    rintro rfl
    obtain ⟨rfl, -⟩ := Prod.mk.inj (Option.some.inj (hi.symm.trans hj))
    exact hindex rfl
  by_cases hr : r.IsPlain
  · by_cases hq : q.IsPlain
    · have hp := h.plain _ (List.mem_of_getElem? hi) hr
      have ho := h.plain _ (List.mem_of_getElem? hj) hq
      exact fun hsame => hindex (h.stands.apart _ _ _ _ hp ho hsame)
    · exact (h.own_apart hj hi hq hdifferent.symm).symm
  · exact h.own_apart hi hj hr hdifferent

/-- What the program of a request was made of. -/
theorem wraps (h : Sound requests history) (member : (r, p) ∈ history.served) :
    ∃ body, p.Wraps body r.own? ∧
      (r.IsPlain → ∃ first, first? requests r.index = some first ∧ body = first.body) ∧
      (¬ r.IsPlain → body = r.body) := by
  rcases r.plain_or_own with hplain | ⟨d, given⟩
  · obtain ⟨first, hfirst, hwraps⟩ := h.stands.first (h.plain _ member hplain)
    have hnone : r.own? = none := hplain
    rw [hnone]
    exact ⟨first.body, hwraps, fun _ => ⟨first, hfirst, rfl⟩, fun hown => absurd hplain hown⟩
  · have hown : ¬ r.IsPlain := by
      unfold Request.IsPlain
      simp [given]
    rw [given]
    exact ⟨r.body, h.own _ member d given, fun hplain => absurd hplain hown, fun _ => rfl⟩

end Sound

/-- A request with data of its own changes no slot. -/
theorem slots_next_own (history : History) {request : Request} (hown : ¬ request.IsPlain) :
    (history.next request).slots = history.slots := by
  rcases request.plain_or_own with hplain | ⟨d, given⟩
  · exact absurd hplain hown
  · unfold next
    rw [request_own given]

/-- A slot that is filled keeps its program through any further requests. -/
theorem keeps (history : History) (later : List Request) {index : Nat} {program : Program}
    (h : history.slots.get? index = some program) :
    (later.foldl History.next history).slots.get? index = some program := by
  induction later generalizing history with
  | nil => exact h
  | cons request rest ih =>
      apply ih
      unfold next
      rcases request.plain_or_own with hplain | ⟨d, given⟩
      · cases hget : history.slots.get? request.index with
        | none =>
            rw [request_fills hplain hget]
            have hindex : index ≠ request.index := by
              rintro rfl
              cases h.symm.trans hget
            exact (Table.get?_set_ne _ _ hindex).trans h
        | some other =>
            rw [request_filled hplain hget]
            exact h
      · rw [request_own given]
        exact h

end History

theorem serve_sound (fresh : Nat) (requests : List Request) :
    (serve fresh requests).Sound requests :=
  (History.sound_empty fresh).foldl requests

end Slots

/-- The programs that requests get from a row, one request after another, and the
row after them. -/
def Row.serve (row : Row) (fresh : Nat) : List Slots.Request → List Program × Row
  | [] => ([], row)
  | request :: rest =>
    let answer := row.request (fresh + request.elsewhere) request.index request.body request.data
    let (programs, last) := answer.row.serve answer.fresh rest
    (answer.program :: programs, last)

/-- A row that keeps the same programs as the slots serves any further requests
as they do. -/
theorem Row.Keeps.serve {row : Row} {history : Slots.History} (h : row.Keeps history.slots)
    (later : List Slots.Request) :
    (later.foldl Slots.History.next history).served.map Prod.snd =
        history.served.map Prod.snd ++ (row.serve history.fresh later).1 ∧
      (row.serve history.fresh later).2.Keeps
        (later.foldl Slots.History.next history).slots := by
  induction later generalizing row history with
  | nil => exact ⟨(List.append_nil _).symm, h⟩
  | cons request rest ih =>
      let answer := row.request (history.fresh + request.elsewhere) request.index request.body
        request.data
      obtain ⟨hprogram, hfresh, _, hkeeps⟩ := h.request (history.fresh + request.elsewhere)
        request.index request.body request.data
      obtain ⟨hserved, hlast⟩ := @ih answer.row (history.next request) hkeeps
      have hserve : row.serve history.fresh (request :: rest) =
          (answer.program :: (answer.row.serve (history.next request).fresh rest).1,
            (answer.row.serve (history.next request).fresh rest).2) :=
        congrArg (fun fresh => (answer.program :: (answer.row.serve fresh rest).1,
          (answer.row.serve fresh rest).2)) hfresh
      have hnext : (history.next request).served.map Prod.snd =
          history.served.map Prod.snd ++ [answer.program] := by
        rw [hprogram]
        exact List.map_append
      rw [hserve, List.foldl_cons, hserved, hnext]
      exact ⟨List.append_assoc _ _ _, hlast⟩

/-- Slots in a row, which grows as they are filled, serve a whole history as the
table of slots does. -/
theorem Slots.serve_in_row (fresh : Nat) (requests : List Slots.Request) :
    (serve fresh requests).served.map Prod.snd = (Row.serve {} fresh requests).1 ∧
      (Row.serve {} fresh requests).2.Keeps (serve fresh requests).slots :=
  Row.Keeps.empty.serve requests

/-- What a run of a program sees, when it is run without a helper around it. -/
theorem Program.Wraps.render_eq {program : Program} {body : List Node} {captured : Option Value}
    (h : program.Wraps body captured) (worker : Worker) (frame : Frame) (context : Value)
    (data : Option Value) :
    program.render worker frame context data =
      worker (.nodes ⟨frame, context, context, (data.filter Value.isTruthy).or captured, [], none⟩
        body) := by
  unfold Program.render Program.dataFor
  rw [h.body, h.data, h.depths]

/-- What requests for the programs of blocks get, over any history. Plain
requests of one number get one program, made for the first of them; requests of
different numbers never share one, and a request with truthy data gets one that
nobody else gets and changes no slot. As many slots are filled as numbers were
requested plainly, and a slot that is filled keeps its program. So a block sees
the data given when it is run if that is truthy, else the data given with the
request if that is truthy, else none. -/
theorem Slots.keeps_first_programs (fresh : Nat) (requests : List Request) :
    let history := serve fresh requests
    history.served.map Prod.fst = requests ∧
    (∀ (i j : Nat) (r q : Request) (p o : Program),
      history.served[i]? = some (r, p) → history.served[j]? = some (q, o) →
      (r.IsPlain → q.IsPlain → r.index = q.index → p = o) ∧
      (r.index ≠ q.index → p.identity ≠ o.identity) ∧
      (¬ r.IsPlain → i ≠ j → p.identity ≠ o.identity)) ∧
    (∀ (r : Request) (p : Program), (r, p) ∈ history.served →
      ∃ body, p.Wraps body r.own? ∧
        (r.IsPlain → ∃ first, first? requests r.index = some first ∧ body = first.body) ∧
        (¬ r.IsPlain → body = r.body) ∧
        ∀ (worker : Worker) (frame : Frame) (context : Value) (data : Option Value),
          p.render worker frame context data =
            worker (.nodes ⟨frame, context, context,
              (data.filter Value.isTruthy).or (r.data.filter Value.isTruthy), [], none⟩ body)) ∧
    (∀ r : Request, ¬ r.IsPlain → (serve fresh (requests ++ [r])).slots = history.slots) ∧
    history.slots.size = (plainIndices requests).toFinset.card ∧
    ∀ (later : List Request) (index : Nat) (program : Program),
      history.slots.get? index = some program →
      (serve fresh (requests ++ later)).slots.get? index = some program := by
  intro history
  have hsound : history.Sound requests := serve_sound fresh requests
  refine ⟨hsound.served, ?_, ?_, ?_, hsound.stands.size_eq, ?_⟩
  · intro i j r q p o hi hj
    exact ⟨hsound.plain_eq hi hj, hsound.index_apart hi hj, hsound.own_apart hi hj⟩
  · intro r p member
    obtain ⟨body, hwraps, hplain, hown⟩ := hsound.wraps member
    exact ⟨body, hwraps, hplain, hown, hwraps.render_eq⟩
  · intro r hown
    rw [serve_append]
    exact history.slots_next_own hown
  · intro later index program hget
    rw [serve_append]
    exact history.keeps later hget

namespace SparseRequests

/-- Requests of two blocks in descending order, the second time with other
blocks, and with data that is truthy, falsy and absent. -/
def requests : List Slots.Request :=
  [⟨5, [.text "a"], none, 0⟩, ⟨2, [.text "b"], some .null, 3⟩,
    ⟨5, [.text "c"], some (.bool true), 0⟩, ⟨5, [.text "d"], some (.bool false), 1⟩]

end SparseRequests

/-- The last of four requests gets what the first one got, and the third one a
program of its own; two slots are filled. -/
theorem Slots.keeps_first_programs_sparse :
    let history := Slots.serve 7 SparseRequests.requests
    (history.served.map (·.2.identity)) = [7, 11, 12, 7] ∧
    history.slots.size = 2 ∧
    ∀ program, history.slots.get? 5 = some program →
      (Slots.serve 7 (SparseRequests.requests ++ SparseRequests.requests)).slots.get? 5 =
        some program := by
  intro history
  obtain ⟨_, _, _, _, hsize, hkeeps⟩ := Slots.keeps_first_programs 7 SparseRequests.requests
  refine ⟨rfl, hsize.trans ?_, fun program hget => hkeeps _ 5 program hget⟩
  decide +kernel

end Stencil
