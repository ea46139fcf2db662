import DeclMerge.Proofs.Memo
import Mathlib.Data.Finset.Card

/-!
# The first computation wins

A memo is used by calls that bring their own computations, and a computation may call the memo
again before it gives a value. So between the beginning and the end of a computation the memo holds
an empty cell, and it counts a computation that has not been completed. Seen from outside it is a
map all the same: the first computation that is run for a key gives the value of the key, no other
one is run for it, and what can be read or counted at any time follows from what happened before.

The only condition is that no computation asks for its own key. It is stated for the run that takes
place: a computation that is never run may ask for anything.

## Main definitions

* `Memo.Event`, `Memo.Session` — a memo in use, with a log of what happens
* `Memo.Routine` — a computation that calls a memo, depending on what it gets
* `Memo.Call` — what a memo can be asked, and by which computation if need be
* `Memo.Routine.Proper` — no key is asked for while its value is computed
* `Memo.Event.Follows` — what an event has to do with those before it
* `Memo.Kept` — the invariant, in which computations are under way
* `Memo.FirstWins` — the memo as a map of first values

## Main results

* `Memo.Kept.begin`, `Memo.Kept.finish` — a computation begins and ends
* `Memo.Kept.run` — a whole computation keeps the invariant
* `Memo.firstComputationWins` — a memo is a map of first values after any calls
-/

namespace DeclMerge.Memo

/-! ### Memos in use -/

/-- What happens to a memo in use. -/
inductive Event (κ α : Type) where
  /-- A computation begins. -/
  | began (key : κ)
  /-- A computation gives its value. -/
  | computed (key : κ) (value : α)
  /-- A request is completed. -/
  | answered (key : κ) (value : α)
  /-- A value is read without a computation. -/
  | looked (key : κ) (found : Option α)
  /-- The computations and the values are counted. -/
  | counted (runs resolved : Nat)

/-- The keys whose computations have begun, in order. -/
def begunKeys {κ α : Type} (log : List (Event κ α)) : List κ :=
  log.filterMap fun
    | .began key => some key
    | _ => none

/-- The keys of the completed requests, in order. -/
def answeredKeys {κ α : Type} (log : List (Event κ α)) : List κ :=
  log.filterMap fun
    | .answered key _ => some key
    | _ => none

/-- A memo in use: what lies around it, which computations read and change, and what has happened so
far. -/
structure Session (κ α σ : Type) where
  memo : Memo κ α
  surroundings : σ
  log : List (Event κ α) := []

variable {κ α σ : Type} [DecidableEq κ]

namespace Session

/-- Where the memo lies. -/
def memoPart : Part (Session κ α σ) (Memo κ α) where
  read := memo
  write memo s := { s with memo }

/-- One more event. -/
def record (s : Session κ α σ) (event : Event κ α) : Session κ α σ :=
  { s with log := s.log ++ [event] }

/-- The session while the computation for `key` runs. -/
def begin (s : Session κ α σ) (key : κ) : Session κ α σ :=
  { s with memo := s.memo.begin key, log := s.log ++ [.began key] }

/-- The session after the computation for `key` has given `value`. -/
def finish (s : Session κ α σ) (key : κ) (value : α) : Session κ α σ :=
  { s with
    memo := s.memo.finish key value
    log := s.log ++ [.computed key value] ++ [.answered key value] }

/-- A computation whose beginning and end are recorded. -/
def logged (key : κ) (compute : StateM (Session κ α σ) α) : StateM (Session κ α σ) α := do
  modify (·.record (.began key))
  let value ← compute
  modify (·.record (.computed key value))
  return value

/-- A request with its own computation. -/
def request (key : κ) (compute : StateM (Session κ α σ) α) : StateM (Session κ α σ) α := do
  let value ← Memo.request memoPart key (logged key compute)
  modify (·.record (.answered key value))
  return value

/-- Reading a key. -/
def look (key : κ) : StateM (Session κ α σ) (Option α) := fun s =>
  (s.memo.get? key, s.record (.looked key (s.memo.get? key)))

/-- Counting the computations and the values. -/
def count : StateM (Session κ α σ) (Nat × Nat) := fun s =>
  ((s.memo.computations, s.memo.resolved), s.record (.counted s.memo.computations s.memo.resolved))

end Session

/-- A computation. It reads and changes what lies around the memo, and it calls the memo, where a
request brings a computation of its own. How it goes on depends on what it gets. -/
inductive Routine (κ α σ : Type) where
  | done (value : α)
  | act (change : σ → σ) (next : σ → Routine κ α σ)
  | request (key : κ) (compute : Routine κ α σ) (next : α → Routine κ α σ)
  | look (key : κ) (next : Option α → Routine κ α σ)
  | count (next : Nat × Nat → Routine κ α σ)

/-- The run of a computation. -/
def Routine.run : Routine κ α σ → StateM (Session κ α σ) α
  | .done value => pure value
  | .act change next => fun s =>
    (next s.surroundings).run { s with surroundings := change s.surroundings }
  | .request key compute next => do (next (← Session.request key compute.run)).run
  | .look key next => do (next (← Session.look key)).run
  | .count next => do (next (← Session.count)).run

/-- No key is asked for while its value is computed. The computations for `running` are under
way, and a computation is looked into only if it is run. -/
def Routine.Proper : Routine κ α σ → List κ → Session κ α σ → Prop
  | .done _, _, _ => True
  | .act change next, running, s =>
    (next s.surroundings).Proper running { s with surroundings := change s.surroundings }
  | .request key compute next, running, s =>
    key ∉ running ∧
      (s.memo.get? key = none → compute.Proper (key :: running) (s.begin key)) ∧
      (next (Session.request key compute.run s).1).Proper running
        (Session.request key compute.run s).2
  | .look key next, running, s =>
    (next (Session.look key s).1).Proper running (Session.look key s).2
  | .count next, running, s => (next (Session.count s).1).Proper running (Session.count s).2

/-- What a memo can be asked. -/
inductive Call (κ α σ : Type) where
  | request (key : κ) (compute : Routine κ α σ)
  | look (key : κ)
  | count

/-- The session after a call. -/
def Call.perform (s : Session κ α σ) : Call κ α σ → Session κ α σ
  | .request key compute => (Session.request key compute.run s).2
  | .look key => (Session.look key s).2
  | .count => (Session.count s).2

/-- No computation that a call runs asks for a key whose value is being computed. -/
def Call.Proper (s : Session κ α σ) : Call κ α σ → Prop
  | .request key compute => s.memo.get? key = none → compute.Proper [key] (s.begin key)
  | .look _ => True
  | .count => True

/-- The session after several calls. -/
def performAll (s : Session κ α σ) (calls : List (Call κ α σ)) : Session κ α σ :=
  calls.foldl Call.perform s

/-- Each of several calls is proper when its turn comes. -/
def ProperAll : Session κ α σ → List (Call κ α σ) → Prop
  | _, [] => True
  | s, call :: calls => call.Proper s ∧ ProperAll (call.perform s) calls

/-! ### What is known of a memo in use -/

/-- What an event has to do with those before it. -/
def Event.Follows (before : List (Event κ α)) : Event κ α → Prop
  -- No computation has begun for the key, so the one that begins is the first.
  | .began key => .began key ∉ before
  | .computed key _ => .began key ∈ before ∧ ∀ other, .computed key other ∉ before
  | .answered key value => .computed key value ∈ before
  | .looked key found => ∀ value, found = some value ↔ .answered key value ∈ before
  -- The values are those of the completed requests; computations under way are counted as well.
  | .counted runs resolved =>
    resolved = (answeredKeys before).toFinset.card ∧
      runs = resolved + ((begunKeys before).toFinset \ (answeredKeys before).toFinset).card

/-- Each event of a log follows from those before it. -/
def Lawful (log : List (Event κ α)) : Prop :=
  ∀ before event after, log = before ++ event :: after → event.Follows before

/-- What holds of a session in which the computations for `running` are under way. -/
structure Kept (running : List κ) (s : Session κ α σ) : Prop where
  lawful : Lawful s.log
  slots_eq : s.memo.cells.map Prod.fst = begunKeys s.log
  begun_nodup : (begunKeys s.log).Nodup
  running_nodup : running.Nodup
  empty_iff : ∀ key, s.memo.cell? key = some none ↔ key ∈ running
  full_iff : ∀ key value, s.memo.cell? key = some (some value) ↔ .answered key value ∈ s.log
  computed_iff : ∀ key value, .computed key value ∈ s.log ↔ .answered key value ∈ s.log
  computations_eq : s.memo.computations = (begunKeys s.log).length
  resolved_eq : s.memo.resolved + running.length = (begunKeys s.log).length

/-- A memo as a map of first values. -/
structure FirstWins (s : Session κ α σ) : Prop where
  lawful : Lawful s.log
  /-- All answers for a key are the same. -/
  answers_eq : ∀ key value other, .answered key value ∈ s.log → .answered key other ∈ s.log →
    value = other
  get?_eq_some_iff : ∀ key value, s.memo.get? key = some value ↔ .answered key value ∈ s.log
  /-- Only requests create slots. -/
  slot_iff : ∀ key, key ∈ s.memo.cells.map Prod.fst ↔ key ∈ answeredKeys s.log
  computations_eq : s.memo.computations = (answeredKeys s.log).toFinset.card
  resolved_eq : s.memo.resolved = (answeredKeys s.log).toFinset.card

/-! ### Logs -/

section Log

variable {log : List (Event κ α)} {key : κ} {value : α}

omit [DecidableEq κ] in
@[simp] theorem mem_begunKeys_iff : key ∈ begunKeys log ↔ .began key ∈ log := by
  rw [begunKeys, List.mem_filterMap]
  constructor
  · rintro ⟨event, hmem, hkey⟩
    cases event <;> cases hkey
    exact hmem
  · exact fun hmem => ⟨_, hmem, rfl⟩

omit [DecidableEq κ] in
@[simp] theorem mem_answeredKeys_iff :
    key ∈ answeredKeys log ↔ ∃ value, .answered key value ∈ log := by
  rw [answeredKeys, List.mem_filterMap]
  constructor
  · rintro ⟨event, hmem, hkey⟩
    cases event <;> cases hkey
    exact ⟨_, hmem⟩
  · rintro ⟨value, hmem⟩
    exact ⟨_, hmem, rfl⟩

omit [DecidableEq κ] in
theorem begunKeys_append (log later : List (Event κ α)) :
    begunKeys (log ++ later) = begunKeys log ++ begunKeys later :=
  List.filterMap_append

theorem lawful_nil : Lawful ([] : List (Event κ α)) := by
  intro before event after h
  simp at h

theorem Lawful.concat (h : Lawful log) {event : Event κ α} (hevent : event.Follows log) :
    Lawful (log ++ [event]) := by
  intro before other after hsplit
  rcases List.eq_nil_or_concat after with rfl | ⟨rest, last, rfl⟩
  · obtain ⟨rfl, hlast⟩ := List.append_inj' hsplit rfl
    cases hlast
    exact hevent
  · refine h before other rest ?_
    have hsplit' : log ++ [event] = (before ++ other :: rest) ++ [last] := by
      rw [hsplit, List.concat_eq_append, List.append_assoc, List.cons_append]
    exact (List.append_inj' hsplit' rfl).1

end Log

/-! ### The two moves of a computation -/

section Moves

variable {running : List κ} {s : Session κ α σ} {key : κ} {value : α}

theorem map_fst_fillCell (key : κ) (value : α) (cells : List (κ × Option α)) :
    (fillCell key value cells).map Prod.fst = cells.map Prod.fst := by
  induction cells with
  | nil => rfl
  | cons entry cells ih =>
    obtain ⟨k, cell⟩ := entry
    rw [fillCell]
    split
    · rfl
    · rw [List.map_cons, List.map_cons, ih]

/-- Filling an empty cell makes one more value. -/
theorem resolved_finish {memo : Memo κ α} (h : memo.cell? key = some none) (value : α) :
    (memo.finish key value).resolved = memo.resolved + 1 := by
  obtain ⟨label, cells, computations⟩ := memo
  change cells.lookup key = some none at h
  change (fillCell key value cells).countP _ = cells.countP _ + 1
  induction cells with
  | nil => cases h
  | cons entry cells ih =>
    obtain ⟨k, cell⟩ := entry
    rw [fillCell]
    by_cases hkey : k = key
    · subst hkey
      rw [List.lookup_cons_self, Option.some.injEq] at h
      simp [h]
    · have hlookup : cells.lookup key = some none := by
        rwa [List.lookup_cons, beq_eq_false_iff_ne.mpr (Ne.symm hkey)] at h
      rw [if_neg hkey, List.countP_cons, List.countP_cons, ih hlookup]
      omega

/-- A new cell holds no value. -/
theorem cells_begin {memo : Memo κ α} (h : memo.cell? key = none) :
    (memo.begin key).cells = memo.cells ++ [(key, none)] := by
  have hopen : openCell key memo.cells = memo.cells ++ [(key, none)] := by
    rw [cell?] at h
    rw [openCell, h]
    rfl
  exact hopen

theorem Kept.begun_iff (h : Kept running s) : .began key ∈ s.log ↔ s.memo.cell? key ≠ none := by
  rw [← mem_begunKeys_iff, ← h.slots_eq, ← isSome_lookup_iff, cell?, Option.isSome_iff_ne_none]

theorem Kept.get?_eq_some_iff (h : Kept running s) (key : κ) (value : α) :
    s.memo.get? key = some value ↔ .answered key value ∈ s.log := by
  rw [get?_eq_join_cell?, Option.join_eq_some_iff, h.full_iff]

/-- A key without a value has no cell unless its computation is under way. -/
theorem Kept.cell?_eq_none (h : Kept running s) (hkey : key ∉ running)
    (hget : s.memo.get? key = none) : s.memo.cell? key = none := by
  rcases hcell : s.memo.cell? key with - | - | value
  · rfl
  · exact absurd ((h.empty_iff key).mp hcell) hkey
  · rw [get?_eq_join_cell?, hcell] at hget
    cases hget

/-- A computation has begun exactly if it is under way or its request has been completed. -/
theorem Kept.toFinset_running (h : Kept running s) :
    running.toFinset = (begunKeys s.log).toFinset \ (answeredKeys s.log).toFinset := by
  ext key
  simp only [List.mem_toFinset, Finset.mem_sdiff, mem_begunKeys_iff, mem_answeredKeys_iff,
    h.begun_iff, ← h.empty_iff, ← h.full_iff]
  cases s.memo.cell? key with
  | none => simp
  | some cell => cases cell <;> simp

theorem Kept.answered_subset (h : Kept running s) :
    (answeredKeys s.log).toFinset ⊆ (begunKeys s.log).toFinset := by
  intro key
  simp only [List.mem_toFinset, mem_begunKeys_iff, mem_answeredKeys_iff, h.begun_iff, ← h.full_iff]
  rintro ⟨value, hfull⟩ hnone
  cases hnone.symm.trans hfull

/-- The values are counted by the keys of the completed requests, and so are the computations but
for those that are under way. -/
theorem Kept.counts (h : Kept running s) :
    s.memo.resolved = (answeredKeys s.log).toFinset.card ∧
      s.memo.computations = s.memo.resolved +
        ((begunKeys s.log).toFinset \ (answeredKeys s.log).toFinset).card := by
  have hbegun := List.toFinset_card_of_nodup h.begun_nodup
  have hrunning := List.toFinset_card_of_nodup h.running_nodup
  have hsum := Finset.card_sdiff_add_card_eq_card h.answered_subset
  have hresolved := h.resolved_eq
  have hcomputations := h.computations_eq
  rw [h.toFinset_running] at hrunning
  omega

/-- An event that says nothing new of computations and answers. -/
theorem Kept.record (h : Kept running s) {event : Event κ α} (hevent : event.Follows s.log)
    (hbegan : ∀ key, event ≠ .began key) (hcomputed : ∀ key value, event ≠ .computed key value)
    (hanswered : ∀ key value, event = .answered key value → .answered key value ∈ s.log) :
    Kept running (s.record event) := by
  -- Nothing that the memo is compared with changes.
  have hkeys : begunKeys (s.log ++ [event]) = begunKeys s.log := by
    rw [begunKeys_append]
    cases event with
    | began key => exact absurd rfl (hbegan key)
    | computed | answered | looked | counted => exact List.append_nil _
  have hanswers : ∀ key value,
      .answered key value ∈ s.log ++ [event] ↔ .answered key value ∈ s.log := by
    intro key value
    rw [List.mem_append, List.mem_singleton]
    exact or_iff_left_of_imp fun heq => hanswered key value heq.symm
  have hvalues : ∀ key value,
      .computed key value ∈ s.log ++ [event] ↔ .computed key value ∈ s.log := by
    intro key value
    rw [List.mem_append, List.mem_singleton]
    exact or_iff_left_of_imp fun heq => absurd heq.symm (hcomputed key value)
  exact {
    lawful := h.lawful.concat hevent
    slots_eq := h.slots_eq.trans hkeys.symm
    begun_nodup := hkeys ▸ h.begun_nodup
    running_nodup := h.running_nodup
    empty_iff := h.empty_iff
    full_iff := fun key value => (h.full_iff key value).trans (hanswers key value).symm
    computed_iff := fun key value =>
      (hvalues key value).trans ((h.computed_iff key value).trans (hanswers key value).symm)
    computations_eq := h.computations_eq.trans (congrArg List.length hkeys.symm)
    resolved_eq := h.resolved_eq.trans (congrArg List.length hkeys.symm) }

/-- A computation begins for a key that has no cell. -/
theorem Kept.begin (h : Kept running s) (hkey : s.memo.cell? key = none) :
    Kept (key :: running) (s.begin key) := by
  have hnew : key ∉ begunKeys s.log := by
    rw [mem_begunKeys_iff, h.begun_iff, not_not]
    exact hkey
  have hrunning : key ∉ running := by
    rw [← h.empty_iff, hkey]
    nofun
  have hkeys : begunKeys (s.begin key).log = begunKeys s.log ++ [key] := begunKeys_append ..
  have hcells : (s.begin key).memo.cells = s.memo.cells ++ [(key, none)] := cells_begin hkey
  have hcell : ∀ other, (s.begin key).memo.cell? other =
      if other = key then some none else s.memo.cell? other := cell?_begin hkey
  have hlog : (s.begin key).log = s.log ++ [.began key] := rfl
  exact {
    lawful := h.lawful.concat (mt mem_begunKeys_iff.mpr hnew)
    slots_eq := by
      rw [hcells, hkeys, List.map_append, h.slots_eq]
      rfl
    begun_nodup := by
      rw [hkeys, ← List.concat_eq_append]
      exact h.begun_nodup.concat hnew
    running_nodup := List.nodup_cons.mpr ⟨hrunning, h.running_nodup⟩
    empty_iff := fun other => by
      rw [hcell, List.mem_cons, ← h.empty_iff]
      split <;> simp [*]
    full_iff := fun other value => by
      rw [hcell, hlog, List.mem_append, List.mem_singleton, ← h.full_iff]
      by_cases hother : other = key
      · simp [hother, hkey]
      · simp [hother]
    computed_iff := fun other value => by
      rw [hlog]
      simpa using h.computed_iff other value
    computations_eq := by
      rw [hkeys, List.length_append, ← h.computations_eq]
      rfl
    resolved_eq := by
      have hresolved := h.resolved_eq
      have hcount : (s.begin key).memo.resolved = s.memo.resolved := by
        rw [resolved, hcells, List.countP_append]
        rfl
      rw [hkeys, hcount, List.length_cons, List.length_append, List.length_singleton]
      omega }

/-- The last computation that has begun gives its value. -/
theorem Kept.finish (h : Kept (key :: running) s) (value : α) :
    Kept running (s.finish key value) := by
  have hempty : s.memo.cell? key = some none := (h.empty_iff key).mpr List.mem_cons_self
  have hcell : ∀ other, (s.finish key value).memo.cell? other =
      if other = key then some (some value) else s.memo.cell? other := cell?_finish hempty value
  have hlog : (s.finish key value).log =
      s.log ++ [.computed key value] ++ [.answered key value] := rfl
  have hkeys : begunKeys (s.finish key value).log = begunKeys s.log := by
    rw [hlog, begunKeys_append, begunKeys_append]
    exact (List.append_nil _).trans (List.append_nil _)
  obtain ⟨hrunning, hrest⟩ := List.nodup_cons.mp h.running_nodup
  -- Its computation has begun, and no other one has given a value: the cell would be full.
  have hbegan : .began key ∈ s.log := by
    rw [h.begun_iff, hempty]
    nofun
  have hfirst : ∀ other, .computed key other ∉ s.log := by
    intro other
    rw [h.computed_iff, ← h.full_iff, hempty]
    nofun
  have hcomputed : (Event.computed key value).Follows s.log := ⟨hbegan, hfirst⟩
  exact {
    lawful := (h.lawful.concat hcomputed).concat
      (List.mem_append_right _ (List.mem_singleton_self _))
    slots_eq := by
      rw [hkeys, ← h.slots_eq]
      exact map_fst_fillCell key value s.memo.cells
    begun_nodup := by
      rw [hkeys]
      exact h.begun_nodup
    running_nodup := hrest
    empty_iff := fun other => by
      rw [hcell]
      by_cases hother : other = key
      · simp [hother, hrunning]
      · simp [hother, h.empty_iff]
    full_iff := fun other found => by
      rw [hcell, hlog]
      by_cases hother : other = key
      · simp [hother, ← h.full_iff, hempty, eq_comm]
      · simp [hother, h.full_iff]
    computed_iff := fun other found => by
      rw [hlog]
      simp [h.computed_iff]
    computations_eq := by
      rw [hkeys, ← h.computations_eq]
      rfl
    resolved_eq := by
      have hresolved := h.resolved_eq
      have hcount : (s.finish key value).memo.resolved = s.memo.resolved + 1 :=
        resolved_finish hempty value
      rw [List.length_cons] at hresolved
      rw [hkeys, hcount]
      omega }

end Moves

/-! ### Calls and computations -/

section Calls

variable {running : List κ} {s s' : Session κ α σ} {key : κ} {value : α}
  {compute : StateM (Session κ α σ) α}

theorem Session.request_of_some (h : s.memo.get? key = some value) :
    Session.request key compute s = (value, s.record (.answered key value)) := by
  have hrequest : Memo.request memoPart key (logged key compute) s = (value, s) :=
    request_of_get?_eq_some h
  simp only [Session.request, bind, StateT.bind]
  rw [hrequest]
  rfl

theorem Session.request_of_none (h : s.memo.get? key = none) :
    Session.request key compute s = ((compute (s.begin key)).1,
      (compute (s.begin key)).2.finish key (compute (s.begin key)).1) := by
  have hget : (memoPart.read s).get? key = none := h
  simp only [Session.request, bind, StateT.bind, Memo.request, hget]
  rfl

theorem Kept.look (h : Kept running s) (key : κ) : Kept running (Session.look key s).2 := by
  have hfollows : (Event.looked key (s.memo.get? key)).Follows s.log := h.get?_eq_some_iff key
  exact h.record hfollows nofun nofun nofun

theorem Kept.count (h : Kept running s) : Kept running (Session.count s).2 := by
  have hfollows : (Event.counted s.memo.computations s.memo.resolved).Follows s.log := h.counts
  exact h.record hfollows nofun nofun nofun

/-- What lies around a memo has no influence on it. -/
theorem Kept.act (h : Kept running s) (change : σ → σ) :
    Kept running { s with surroundings := change s.surroundings } :=
  { h with }

/-- A request reads a value, or its computation runs between a beginning and an end. -/
theorem Kept.request (h : Kept running s) (hkey : key ∉ running)
    (hcompute : s.memo.get? key = none → Kept (key :: running) (s.begin key) →
      Kept (key :: running) (compute (s.begin key)).2) :
    Kept running (Session.request key compute s).2 := by
  cases hget : s.memo.get? key with
  | none =>
    rw [Session.request_of_none hget]
    exact (hcompute hget (h.begin (h.cell?_eq_none hkey hget))).finish _
  | some value =>
    have hanswered : .answered key value ∈ s.log := (h.get?_eq_some_iff key value).mp hget
    rw [Session.request_of_some hget]
    refine h.record ((h.computed_iff key value).mpr hanswered) nofun nofun ?_
    rintro _ _ ⟨⟩
    exact hanswered

/-- A proper computation keeps what is known of the memo. -/
theorem Kept.run (h : Kept running s) (routine : Routine κ α σ)
    (hproper : routine.Proper running s) : Kept running (routine.run s).2 := by
  induction routine generalizing running s with
  | done value => exact h
  | act change next ih => exact ih _ (h.act change) hproper
  | request key compute next ihcompute ihnext =>
    obtain ⟨hkey, hcompute, hnext⟩ := hproper
    have hrequest : Kept running (Session.request key compute.run s).2 :=
      h.request hkey fun hget hbegin => ihcompute hbegin (hcompute hget)
    exact ihnext _ hrequest hnext
  | look key next ih => exact ih _ (h.look key) hproper
  | count next ih => exact ih _ h.count hproper

/-- A proper call keeps what is known of a memo at rest. -/
theorem Kept.perform (h : Kept [] s) {call : Call κ α σ} (hproper : call.Proper s) :
    Kept [] (call.perform s) := by
  cases call with
  | request key compute =>
    exact h.request List.not_mem_nil fun hget hbegin => hbegin.run compute (hproper hget)
  | look key => exact h.look key
  | count => exact h.count

theorem Kept.performAll (h : Kept [] s) {calls : List (Call κ α σ)} (hproper : ProperAll s calls) :
    Kept [] (performAll s calls) := by
  induction calls generalizing s with
  | nil => exact h
  | cons call calls ih => exact ih (h.perform hproper.1) hproper.2

/-- A memo at rest is a map of first values. -/
theorem Kept.firstWins (h : Kept [] s) : FirstWins s := by
  have hread := h.get?_eq_some_iff
  -- Nothing is under way, so the computations that have begun are those of the answered keys.
  have hkeys : (begunKeys s.log).toFinset = (answeredKeys s.log).toFinset :=
    (Finset.sdiff_eq_empty_iff_subset.mp h.toFinset_running.symm).antisymm h.answered_subset
  obtain ⟨hresolved, hcomputations⟩ := h.counts
  exact {
    lawful := h.lawful
    answers_eq := fun key value other hvalue hother =>
      Option.some.inj (((hread key value).mpr hvalue).symm.trans ((hread key other).mpr hother))
    get?_eq_some_iff := hread
    slot_iff := fun key => by
      rw [h.slots_eq, ← List.mem_toFinset, hkeys, List.mem_toFinset]
    computations_eq := by
      rw [hcomputations, hkeys, sdiff_self, hresolved]
      rfl
    resolved_eq := hresolved }

end Calls

/-! ### Answers -/

section Answers

variable {s : Session κ α σ} {key : κ} {compute : StateM (Session κ α σ) α}

theorem Session.log_prefix_request (hcompute : ∀ s, s.log <+: (compute s).2.log) :
    s.log <+: (Session.request key compute s).2.log := by
  cases hget : s.memo.get? key with
  | none =>
    have hbegin : s.log <+: (s.begin key).log := List.prefix_append _ _
    rw [Session.request_of_none hget]
    exact (hbegin.trans (hcompute _)).trans
      ((List.prefix_append _ _).trans (List.prefix_append _ _))
  | some value =>
    rw [Session.request_of_some hget]
    exact List.prefix_append _ _

/-- A computation forgets nothing of what has happened. -/
theorem Routine.log_prefix_run (routine : Routine κ α σ) (s : Session κ α σ) :
    s.log <+: (routine.run s).2.log := by
  induction routine generalizing s with
  | done value => exact List.prefix_rfl
  | act change next ih => exact ih _ { s with surroundings := change s.surroundings }
  | request key compute next ihcompute ihnext =>
    exact (Session.log_prefix_request ihcompute).trans (ihnext _ _)
  | look key next ih =>
    have hlook : s.log <+: (Session.look key s).2.log := List.prefix_append _ _
    exact hlook.trans (ih _ _)
  | count next ih =>
    have hcount : s.log <+: (Session.count s).2.log := List.prefix_append _ _
    exact hcount.trans (ih _ _)

theorem log_prefix_performAll (calls : List (Call κ α σ)) (s : Session κ α σ) :
    s.log <+: (performAll s calls).log := by
  induction calls generalizing s with
  | nil => exact List.prefix_rfl
  | cons call calls ih =>
    have hcall : s.log <+: (call.perform s).log := by
      cases call with
      | request key compute => exact Session.log_prefix_request compute.log_prefix_run
      | look key => exact List.prefix_append _ _
      | count => exact List.prefix_append _ _
    exact hcall.trans (ih _)

/-- What a request returns is on record. -/
theorem Session.answered_mem_request :
    .answered key (Session.request key compute s).1 ∈ (Session.request key compute s).2.log :=
  List.mem_append_right _ (List.mem_singleton_self _)

end Answers

/-- A fresh memo is called several times, where each request brings its own computation and a
computation may make any calls but a request for a key whose value is being computed. Then all
requests for a key get the value of the one computation that is run for it, reads find the values of
the completed requests, only requests create slots, and the computations and the values are as many
as the keys of the completed requests. -/
theorem firstComputationWins (label : String) (surroundings : σ) (calls : List (Call κ α σ))
    (hproper : ProperAll { memo := { label }, surroundings } calls) :
    FirstWins (performAll { memo := { label }, surroundings } calls) ∧
    ∀ before key compute after, calls = before ++ .request key compute :: after →
      (performAll { memo := { label }, surroundings } calls).memo.get? key =
        some (Session.request key compute.run
          (performAll { memo := { label }, surroundings } before)).1 := by
  have hfresh : Kept [] ({ memo := { label }, surroundings } : Session κ α σ) := {
    lawful := lawful_nil
    slots_eq := rfl
    begun_nodup := List.nodup_nil
    running_nodup := List.nodup_nil
    empty_iff := fun _ => ⟨nofun, nofun⟩
    full_iff := fun _ _ => ⟨nofun, nofun⟩
    computed_iff := fun _ _ => ⟨nofun, nofun⟩
    computations_eq := rfl
    resolved_eq := rfl }
  have hwins := (hfresh.performAll hproper).firstWins
  -- What a request has returned stays on record during the calls after it.
  refine ⟨hwins, fun before key compute after hsplit => (hwins.get?_eq_some_iff key _).mpr ?_⟩
  have hperform : performAll { memo := { label }, surroundings } calls = performAll
      (Session.request key compute.run (performAll { memo := { label }, surroundings } before)).2
      after := by
    rw [hsplit]
    exact List.foldl_append
  rw [hperform]
  exact (log_prefix_performAll after _).subset Session.answered_mem_request

/-- The computation for 2 asks for 1 and counts while it is under way; later computations for both
keys are not run, and reading 3 leaves no trace. -/
def nestedCalls : List (Call Nat Nat Unit) :=
  [.look 3, .request 2 (.request 1 (.done 10) fun value => .count fun _ => .done (value + 1)),
    .request 2 (.done 99), .look 1, .request 1 (.done 5), .look 3, .count]

theorem firstComputationWins_nested :
    (performAll { memo := { label := "" }, surroundings := () } nestedCalls).log =
      [.looked 3 none, .began 2, .began 1, .computed 1 10, .answered 1 10, .counted 2 1,
        .computed 2 11, .answered 2 11, .answered 2 11, .looked 1 (some 10), .answered 1 10,
        .looked 3 none, .counted 2 2] ∧
    FirstWins (performAll { memo := { label := "" }, surroundings := () } nestedCalls) :=
  ⟨rfl, (firstComputationWins "" () nestedCalls
    ⟨trivial, fun _ => ⟨by decide, fun _ => trivial, trivial⟩, fun _ => trivial, trivial,
      fun _ => trivial, trivial, trivial, trivial⟩).1⟩

end DeclMerge.Memo
