import DeclMerge.Proofs.Hierarchy.Invariant
import DeclMerge.Proofs.Steps
import Mathlib.Data.Finset.Card

/-!
# Guards and their active keys

A key is active from the request that enters it until it is left. So the history of a guard says
which keys are active and how many requests there have been, without any look at the guard. As long
as only active keys are left, this is all that a guard goes by: its list of keys has the active
ones, its depth is their number, and its answers follow from them and from the number of requests,
although it counts requests only up to `maxCount`.

## Main definitions

* `GuardCall`, `GuardEvent` — what a guard can be told, and what comes of it
* `Guard.performAll` — a guard that is called several times
* `activeKeys`, `requestCount` — what a history says of a guard
* `Guard.ruling` — the answer to a request, by the history
* `Guard.Tracks` — a guard that is in step with a history
* `Guard.Lawful` — all that a history says of a guard

## Main results

* `Guard.Tracks.enter`, `Guard.Tracks.leave` — each call keeps a guard in step
* `Guard.Tracks.performAll`, `Guard.Tracks.performAll_eq_error_iff` — several calls
* `Guard.followsActiveKeys` — a guard is used wrongly exactly if an inactive key is left, and is
  lawful otherwise
-/

namespace DeclMerge

/-- A call to a guard: a request to enter a key, or the end of its visit. -/
inductive GuardCall (κ : Type) where
  | enter (key : κ)
  | leave (key : κ)
deriving DecidableEq

/-- A call to a guard and, for a request, the answer. -/
inductive GuardEvent (κ : Type) where
  | asked (key : κ) (answer : Admission)
  | left (key : κ)
deriving DecidableEq

namespace GuardEvent

variable {κ : Type}

/-- The call that an event answers. -/
def call : GuardEvent κ → GuardCall κ
  | .asked key _ => .enter key
  | .left key => .leave key

/-- Whether an event answers a request. -/
def isRequest : GuardEvent κ → Bool
  | .asked _ _ => true
  | .left _ => false

/-- The key that an event enters, if any. -/
def entered? : GuardEvent κ → Option κ
  | .asked key .entered => some key
  | _ => none

end GuardEvent

section History

variable {κ : Type}

/-- The number of requests in a history. -/
def requestCount (history : List (GuardEvent κ)) : Nat := history.countP GuardEvent.isRequest

@[simp] theorem requestCount_append (history later : List (GuardEvent κ)) :
    requestCount (history ++ later) = requestCount history + requestCount later :=
  List.countP_append

theorem requestCount_asked_cons (key : κ) (answer : Admission) (history : List (GuardEvent κ)) :
    requestCount (.asked key answer :: history) = requestCount history + 1 :=
  List.countP_cons_of_pos rfl

variable [DecidableEq κ]

/-- The active keys after one more event: only a request that enters its key adds one. -/
def activeAfter (keys : Finset κ) : GuardEvent κ → Finset κ
  | .asked key .entered => insert key keys
  | .asked _ _ => keys
  | .left key => keys.erase key

/-- The keys that have been entered in a history and not been left since. -/
def activeKeys (history : List (GuardEvent κ)) : Finset κ := history.foldl activeAfter ∅

theorem activeKeys_concat (history : List (GuardEvent κ)) (event : GuardEvent κ) :
    activeKeys (history ++ [event]) = activeAfter (activeKeys history) event :=
  List.foldl_concat ..

end History

namespace Guard

variable {κ : Type} [DecidableEq κ] {maxDepth maxIterations : Nat} {guard last : Guard κ}
  {history events : List (GuardEvent κ)} {calls : List (GuardCall κ)} {key : κ}

/-- The event that a call leads to, and the guard afterwards. -/
def perform (guard : Guard κ) : GuardCall κ → Except GuardMisuse (GuardEvent κ × Guard κ)
  | .enter key => .ok (.asked key (guard.enter key).1, (guard.enter key).2)
  | .leave key => do return (.left key, ← guard.leave? key)

/-- The events that several calls lead to, and the guard afterwards. -/
def performAll (guard : Guard κ) :
    List (GuardCall κ) → Except GuardMisuse (List (GuardEvent κ) × Guard κ)
  | [] => .ok ([], guard)
  | call :: calls => do
    let (event, next) ← guard.perform call
    let (events, last) ← next.performAll calls
    return (event :: events, last)

/-- The answer to a request for a key after a history. The request exceeds the limit if its number
does, and a limit of `maxCount` is never exceeded. -/
def ruling (maxDepth maxIterations : Nat) (history : List (GuardEvent κ)) (key : κ) : Admission :=
  if maxIterations < requestCount history + 1 ∧ maxIterations < maxCount then .iterationExceeded
  else if key ∈ activeKeys history then .cycle
  else if (activeKeys history).card = maxDepth then .depthExceeded
  else .entered

/-- A guard that is in step with a history. -/
structure Tracks (maxDepth maxIterations : Nat) (history : List (GuardEvent κ)) (guard : Guard κ) :
    Prop where
  maxDepth_eq : guard.maxDepth = maxDepth
  maxIterations_eq : guard.maxIterations = maxIterations
  active_nodup : guard.active.Nodup
  toFinset_active : guard.active.toFinset = activeKeys history
  depth_eq : guard.depth = (activeKeys history).card
  depth_le : guard.depth ≤ maxDepth
  iterations_eq : guard.iterations = min (requestCount history) maxCount

theorem tracks_nil (maxDepth maxIterations : Nat) :
    Tracks maxDepth maxIterations [] ({ maxDepth, maxIterations } : Guard κ) :=
  ⟨rfl, rfl, List.nodup_nil, rfl, rfl, Nat.zero_le _, rfl⟩

theorem Tracks.mem_active_iff (h : Tracks maxDepth maxIterations history guard) :
    key ∈ guard.active ↔ key ∈ activeKeys history := by
  rw [← h.toFinset_active, List.mem_toFinset]

/-! ### One call -/

/-- Each request is counted, up to the largest number. -/
theorem Tracks.iterations_asked (h : Tracks maxDepth maxIterations history guard) (key : κ)
    (answer : Admission) :
    guard.count.iterations = min (requestCount (history ++ [.asked key answer])) maxCount := by
  change min (guard.iterations + 1) maxCount = _
  rw [h.iterations_eq, requestCount_append]
  change _ = min (requestCount history + 1) maxCount
  omega

/-- A request that enters nothing is counted and leaves all else as it is. -/
theorem Tracks.count (h : Tracks maxDepth maxIterations history guard) {answer : Admission}
    (hanswer : answer ≠ .entered) :
    Tracks maxDepth maxIterations (history ++ [.asked key answer]) guard.count := by
  have hkeys : activeKeys (history ++ [.asked key answer]) = activeKeys history := by
    rw [activeKeys_concat]
    cases answer with
    | entered => exact absurd rfl hanswer
    | cycle | depthExceeded | iterationExceeded => rfl
  refine ⟨h.maxDepth_eq, h.maxIterations_eq, h.active_nodup, ?_, ?_, h.depth_le, ?_⟩
  · rw [hkeys]
    exact h.toFinset_active
  · rw [hkeys]
    exact h.depth_eq
  · exact h.iterations_asked key _

/-- A request that enters its key makes it active. -/
theorem Tracks.withActive (h : Tracks maxDepth maxIterations history guard)
    (hkey : key ∉ activeKeys history) (hdepth : guard.depth < guard.maxDepth) :
    Tracks maxDepth maxIterations (history ++ [.asked key .entered]) (guard.withActive key) := by
  have hkeys : activeKeys (history ++ [.asked key .entered]) = insert key (activeKeys history) :=
    activeKeys_concat ..
  refine ⟨h.maxDepth_eq, h.maxIterations_eq, ?_, ?_, ?_, ?_, ?_⟩
  · exact List.nodup_cons.mpr ⟨mt h.mem_active_iff.mp hkey, h.active_nodup⟩
  · rw [hkeys, ← h.toFinset_active]
    exact List.toFinset_cons
  · rw [hkeys, Finset.card_insert_of_notMem hkey, ← h.depth_eq]
    rfl
  · rw [h.maxDepth_eq] at hdepth
    exact hdepth
  · exact h.iterations_asked key _

/-- The counter of a guard exceeds the limit exactly if the number of the request does. -/
theorem Tracks.exceeds_iff (h : Tracks maxDepth maxIterations history guard) :
    guard.maxIterations < guard.count.iterations ↔
      maxIterations < requestCount history + 1 ∧ maxIterations < maxCount := by
  -- The counter stops at the largest number, so it never gets past a limit that is as large.
  change guard.maxIterations < min (guard.iterations + 1) maxCount ↔ _
  rw [h.maxIterations_eq, h.iterations_eq]
  omega

/-- A request is answered by the history, and the guard stays in step. -/
theorem Tracks.enter (h : Tracks maxDepth maxIterations history guard) (key : κ) :
    (guard.enter key).1 = ruling maxDepth maxIterations history key ∧
      Tracks maxDepth maxIterations (history ++ [.asked key (guard.enter key).1])
        (guard.enter key).2 := by
  have heq : guard.enter key =
      if guard.maxIterations < guard.count.iterations then (.iterationExceeded, guard.count)
      else if key ∈ guard.active then (.cycle, guard.count)
      else if guard.maxDepth ≤ guard.depth then (.depthExceeded, guard.count)
      else (.entered, guard.withActive key) := rfl
  have hdepth : guard.maxDepth ≤ guard.depth ↔ (activeKeys history).card = maxDepth := by
    have hle := h.depth_le
    rw [h.maxDepth_eq, ← h.depth_eq]
    omega
  simp only [h.exceeds_iff, h.mem_active_iff, hdepth] at heq
  rw [heq, ruling]
  split
  · exact ⟨rfl, h.count nofun⟩
  split
  · exact ⟨rfl, h.count nofun⟩
  split
  · exact ⟨rfl, h.count nofun⟩
  · rename_i hkey hcard
    exact ⟨rfl, h.withActive hkey (not_le.mp (mt hdepth.mp hcard))⟩

/-- An active key can be left, the depth goes down by one, and the guard stays in step. -/
theorem Tracks.leave (h : Tracks maxDepth maxIterations history guard)
    (hkey : key ∈ activeKeys history) :
    ∃ next, guard.leave? key = .ok next ∧ next.depth + 1 = guard.depth ∧
      Tracks maxDepth maxIterations (history ++ [.left key]) next := by
  have hkeys : activeKeys (history ++ [.left key]) = (activeKeys history).erase key :=
    activeKeys_concat ..
  have hcard := Finset.card_erase_add_one hkey
  have hdepth := h.depth_eq
  refine ⟨_, if_pos (h.mem_active_iff.mpr hkey), ?_, ?_⟩
  · change guard.depth - 1 + 1 = guard.depth
    omega
  · refine ⟨h.maxDepth_eq, h.maxIterations_eq, h.active_nodup.erase key, ?_, ?_, ?_, ?_⟩
    · rw [hkeys, ← h.toFinset_active]
      ext other
      change other ∈ (guard.active.erase key).toFinset ↔ _
      rw [List.mem_toFinset, h.active_nodup.mem_erase_iff, Finset.mem_erase, List.mem_toFinset]
    · change guard.depth - 1 = _
      rw [hkeys]
      omega
    · exact (Nat.sub_le _ _).trans h.depth_le
    · rw [requestCount_append]
      exact h.iterations_eq

/-- Leaving a key that is not active is a misuse. -/
theorem Tracks.leave_eq_error (h : Tracks maxDepth maxIterations history guard)
    (hkey : key ∉ activeKeys history) : guard.leave? key = .error .unmatchedLeave :=
  if_neg (mt h.mem_active_iff.mp hkey)

/-- Putting a guard away is a misuse while a key is active. -/
theorem Tracks.close?_eq (h : Tracks maxDepth maxIterations history guard) :
    guard.close? = if activeKeys history = ∅ then .ok ()
      else .error (.stillActive (activeKeys history).card) := by
  rw [close?, ← h.toFinset_active, List.toFinset_card_of_nodup h.active_nodup]
  simp only [List.isEmpty_iff, List.toFinset_eq_empty_iff]

/-- A call succeeds unless it leaves an inactive key, and the guard stays in step. -/
theorem Tracks.perform (h : Tracks maxDepth maxIterations history guard) (call : GuardCall κ) :
    (∃ key, call = .leave key ∧ key ∉ activeKeys history ∧
      guard.perform call = .error .unmatchedLeave) ∨
    (∀ key, call = .leave key → key ∈ activeKeys history) ∧
    ∃ event next, guard.perform call = .ok (event, next) ∧ event.call = call ∧
      (∀ key answer, event = .asked key answer →
        answer = ruling maxDepth maxIterations history key) ∧
      Tracks maxDepth maxIterations (history ++ [event]) next := by
  cases call with
  | enter key =>
    obtain ⟨hanswer, hnext⟩ := h.enter key
    refine .inr ⟨nofun, _, _, rfl, rfl, ?_, hnext⟩
    rintro _ _ ⟨⟩
    exact hanswer
  | leave key =>
    by_cases hkey : key ∈ activeKeys history
    · obtain ⟨next, hleave, -, hnext⟩ := h.leave hkey
      refine .inr ⟨?_, .left key, next, bind_eq_ok_iff.mpr ⟨next, hleave, rfl⟩, rfl, nofun, hnext⟩
      rintro _ ⟨⟩
      exact hkey
    · refine .inl ⟨key, rfl, hkey, ?_⟩
      rw [Guard.perform, h.leave_eq_error hkey]
      rfl

/-! ### Several calls -/

theorem performAll_cons_eq_ok_iff {call : GuardCall κ} :
    guard.performAll (call :: calls) = .ok (events, last) ↔
      ∃ event next later, guard.perform call = .ok (event, next) ∧
        next.performAll calls = .ok (later, last) ∧ events = event :: later := by
  rw [performAll, bind_eq_ok_iff]
  constructor
  · rintro ⟨⟨event, next⟩, hcall, h⟩
    obtain ⟨⟨later, last'⟩, hcalls, hend⟩ := bind_eq_ok_iff.mp h
    cases hend
    exact ⟨event, next, later, hcall, hcalls, rfl⟩
  · rintro ⟨event, next, later, hcall, hcalls, rfl⟩
    exact ⟨(event, next), hcall, bind_eq_ok_iff.mpr ⟨(later, last), hcalls, rfl⟩⟩

theorem performAll_cons_eq_error_iff {call : GuardCall κ} {misuse : GuardMisuse} :
    guard.performAll (call :: calls) = .error misuse ↔
      guard.perform call = .error misuse ∨
        ∃ event next, guard.perform call = .ok (event, next) ∧
          next.performAll calls = .error misuse := by
  rw [performAll]
  cases hcall : guard.perform call with
  | error other => simp [bind, Except.bind]
  | ok result =>
    obtain ⟨event, next⟩ := result
    cases hcalls : next.performAll calls <;> simp [bind, Except.bind, hcalls, pure, Except.pure]

/-- Calls may be made in two parts. -/
theorem performAll_append {next : Guard κ} {later : List (GuardCall κ)}
    {more : List (GuardEvent κ)} (h : guard.performAll calls = .ok (events, next))
    (hlater : next.performAll later = .ok (more, last)) :
    guard.performAll (calls ++ later) = .ok (events ++ more, last) := by
  induction calls generalizing guard events with
  | nil =>
    cases h
    exact hlater
  | cons call calls ih =>
    obtain ⟨event, middle, rest, hcall, hcalls, rfl⟩ := performAll_cons_eq_ok_iff.mp h
    exact performAll_cons_eq_ok_iff.mpr ⟨event, middle, rest ++ more, hcall, ih hcalls, rfl⟩

/-- After several calls a guard is still in step, and each request has been answered by the history
before it. -/
theorem Tracks.performAll (h : Tracks maxDepth maxIterations history guard)
    (hrun : guard.performAll calls = .ok (events, last)) :
    Tracks maxDepth maxIterations (history ++ events) last ∧
      events.map GuardEvent.call = calls ∧
      ∀ before key answer after, events = before ++ .asked key answer :: after →
        answer = ruling maxDepth maxIterations (history ++ before) key := by
  induction calls generalizing guard history events with
  | nil =>
    cases hrun
    exact ⟨by rwa [List.append_nil], rfl, by simp⟩
  | cons call calls ih =>
    obtain ⟨event, next, later, hcall, hcalls, rfl⟩ := performAll_cons_eq_ok_iff.mp hrun
    rcases h.perform call with ⟨key, -, -, herror⟩ | ⟨-, event', next', hok, hevent, hanswer, hnext⟩
    · cases herror.symm.trans hcall
    · obtain ⟨rfl, rfl⟩ := Prod.mk.inj (Except.ok.inj (hok.symm.trans hcall))
      obtain ⟨hlast, hmap, hanswers⟩ := ih hnext hcalls
      rw [List.append_assoc] at hlast
      refine ⟨hlast, by rw [List.map_cons, hevent, hmap], ?_⟩
      intro before key answer after hsplit
      rcases List.cons_eq_append_iff.mp hsplit with ⟨rfl, hhead⟩ | ⟨front, rfl, hlater⟩
      · rw [List.append_nil]
        exact hanswer key answer (List.cons.inj hhead).1.symm
      · have hrule := hanswers front key answer after hlater
        rwa [List.append_assoc] at hrule

/-- Some call leaves a key that is not active then. -/
def LeavesInactive (guard : Guard κ) (history : List (GuardEvent κ)) (calls : List (GuardCall κ)) :
    Prop :=
  ∃ before key after events last, calls = before ++ .leave key :: after ∧
    guard.performAll before = .ok (events, last) ∧ key ∉ activeKeys (history ++ events)

/-- Calls fail exactly if one of them leaves an inactive key. -/
theorem Tracks.performAll_eq_error_iff (h : Tracks maxDepth maxIterations history guard)
    {misuse : GuardMisuse} : guard.performAll calls = .error misuse ↔
      misuse = .unmatchedLeave ∧ guard.LeavesInactive history calls := by
  induction calls generalizing guard history with
  | nil =>
    refine iff_of_false nofun ?_
    rintro ⟨-, before, key, after, events, last, hsplit, -, -⟩
    simp at hsplit
  | cons call calls ih =>
    rw [performAll_cons_eq_error_iff]
    rcases h.perform call with ⟨key, rfl, hkey, herror⟩ | ⟨hactive, event, next, hok, -, -, hnext⟩
    · rw [herror]
      constructor
      · rintro (hmisuse | ⟨event, next, hok, -⟩)
        · exact ⟨(Except.error.inj hmisuse).symm, [], key, calls, [], guard, rfl, rfl,
            by rwa [List.append_nil]⟩
        · cases hok
      · rintro ⟨rfl, -⟩
        exact .inl rfl
    · -- The first call succeeds, so it is a later one that leaves an inactive key.
      have hrest : guard.LeavesInactive history (call :: calls) ↔
          next.LeavesInactive (history ++ [event]) calls := by
        constructor
        · rintro ⟨before, key, after, events, last, hsplit, hbefore, hkey⟩
          rcases List.cons_eq_append_iff.mp hsplit with ⟨rfl, hhead⟩ | ⟨front, rfl, hcalls⟩
          · cases hbefore
            rw [List.append_nil] at hkey
            exact absurd (hactive key (List.cons.inj hhead).1.symm) hkey
          · obtain ⟨event', next', later, hok', hfront, rfl⟩ :=
              performAll_cons_eq_ok_iff.mp hbefore
            obtain ⟨rfl, rfl⟩ := Prod.mk.inj (Except.ok.inj (hok.symm.trans hok'))
            exact ⟨front, key, after, later, last, hcalls, hfront, by
              rwa [List.append_assoc]⟩
        · rintro ⟨front, key, after, events, last, rfl, hfront, hkey⟩
          refine ⟨call :: front, key, after, event :: events, last, rfl,
            performAll_cons_eq_ok_iff.mpr ⟨event, next, events, hok, hfront, rfl⟩, ?_⟩
          rwa [List.append_assoc] at hkey
      rw [hrest, ← ih hnext, hok]
      simp

/-- All that the history of a guard says of it. -/
structure Lawful (maxDepth maxIterations : Nat) (history : List (GuardEvent κ)) (guard : Guard κ) :
    Prop where
  mem_active_iff : ∀ key, key ∈ guard.active ↔ key ∈ activeKeys history
  depth_eq : guard.depth = (activeKeys history).card
  depth_le : guard.depth ≤ maxDepth
  /-- The depth never stays at zero when a key is left. -/
  leave_active : ∀ key ∈ activeKeys history,
    ∃ next, guard.leave? key = .ok next ∧ next.depth + 1 = guard.depth
  leave_inactive : ∀ key, key ∉ activeKeys history → guard.leave? key = .error .unmatchedLeave
  answer_eq : ∀ before key answer after, history = before ++ .asked key answer :: after →
    answer = ruling maxDepth maxIterations before key
  /-- Only a request that enters its key changes the active keys. -/
  active_of_refused : ∀ key, (guard.enter key).1 ≠ .entered →
    (guard.enter key).2.active = guard.active
  exceeded_forever : ∀ before key after,
    history = before ++ .asked key .iterationExceeded :: after →
      ∀ other answer, .asked other answer ∈ after → answer = .iterationExceeded
  close?_eq : guard.close? = if activeKeys history = ∅ then .ok ()
    else .error (.stillActive (activeKeys history).card)

theorem ruling_eq_iterationExceeded_iff : ruling maxDepth maxIterations history key =
    .iterationExceeded ↔ maxIterations < requestCount history + 1 ∧ maxIterations < maxCount := by
  rw [ruling]
  split
  · rename_i hexceeded
    exact iff_of_true rfl hexceeded
  · rename_i hexceeded
    refine iff_of_false ?_ hexceeded
    split
    · nofun
    split <;> nofun

/-- Once the limit is exceeded, it stays so. -/
theorem exceeded_of_answers (hanswers : ∀ before key answer after,
      history = before ++ .asked key answer :: after →
        answer = ruling maxDepth maxIterations before key)
    {before after : List (GuardEvent κ)}
    (hsplit : history = before ++ .asked key .iterationExceeded :: after) {other : κ}
    {answer : Admission} (hmem : .asked other answer ∈ after) : answer = .iterationExceeded := by
  obtain ⟨middle, rest, rfl⟩ := List.append_of_mem hmem
  have hfirst := ruling_eq_iterationExceeded_iff.mp (hanswers before key _ _ hsplit).symm
  have hsplit' : history =
      (before ++ .asked key .iterationExceeded :: middle) ++ .asked other answer :: rest := by
    rw [hsplit, List.append_assoc, List.cons_append]
  rw [hanswers _ other answer rest hsplit', ruling_eq_iterationExceeded_iff, requestCount_append]
  omega

/-- A refused request changes no keys. -/
theorem active_enter_of_ne (h : (guard.enter key).1 ≠ .entered) :
    (guard.enter key).2.active = guard.active := by
  rcases guard.enter_cases key with ⟨-, henter⟩ | ⟨-, henter⟩ | ⟨-, henter⟩ | ⟨-, -, henter⟩ <;>
    rw [henter] at h ⊢
  · rfl
  · rfl
  · rfl
  · exact absurd rfl h

/-- Calls to a fresh guard fail exactly if one of them leaves an inactive key, whatever the limits.
Otherwise the history of the calls says all of the guard: which keys it has, how deep it is, what it
answers, and whether it may be put away. -/
theorem followsActiveKeys (maxDepth maxIterations : Nat) (calls : List (GuardCall κ)) :
    (∀ misuse, ({ maxDepth, maxIterations } : Guard κ).performAll calls = .error misuse ↔
      misuse = .unmatchedLeave ∧
        ({ maxDepth, maxIterations } : Guard κ).LeavesInactive [] calls) ∧
    ∀ events guard, ({ maxDepth, maxIterations } : Guard κ).performAll calls = .ok (events, guard) →
      events.map GuardEvent.call = calls ∧ guard.Lawful maxDepth maxIterations events := by
  have hstart : Tracks maxDepth maxIterations [] ({ maxDepth, maxIterations } : Guard κ) :=
    tracks_nil maxDepth maxIterations
  refine ⟨fun misuse => hstart.performAll_eq_error_iff, fun events guard hrun => ?_⟩
  obtain ⟨htracks, hcalls, hanswers⟩ := hstart.performAll hrun
  rw [List.nil_append] at htracks
  simp only [List.nil_append] at hanswers
  exact ⟨hcalls, {
    mem_active_iff := fun key => htracks.mem_active_iff
    depth_eq := htracks.depth_eq
    depth_le := htracks.depth_le
    leave_active := fun key hkey => by
      obtain ⟨next, hleave, hdepth, -⟩ := htracks.leave hkey
      exact ⟨next, hleave, hdepth⟩
    leave_inactive := fun key hkey => htracks.leave_eq_error hkey
    answer_eq := hanswers
    active_of_refused := fun key => active_enter_of_ne
    exceeded_forever := fun before key after hsplit other answer hmem =>
      exceeded_of_answers hanswers hsplit hmem
    close?_eq := htracks.close?_eq }⟩

/-- With room for one key and three requests, a key comes back to itself, a second one is too deep
while the first is active, and the fourth request exceeds the limit although nothing is active. -/
theorem followsActiveKeys_narrow :
    ({ maxDepth := 1, maxIterations := 3 } : Guard Nat).performAll
        [.enter 1, .enter 1, .enter 2, .leave 1, .enter 2] =
      .ok ([.asked 1 .entered, .asked 1 .cycle, .asked 2 .depthExceeded, .left 1,
        .asked 2 .iterationExceeded], { iterations := 4, maxDepth := 1, maxIterations := 3 }) ∧
    ({ iterations := 4, maxDepth := 1, maxIterations := 3 } : Guard Nat).Lawful 1 3
      [.asked 1 .entered, .asked 1 .cycle, .asked 2 .depthExceeded, .left 1,
        .asked 2 .iterationExceeded] :=
  ⟨rfl, ((followsActiveKeys 1 3 [.enter 1, .enter 1, .enter 2, .leave 1, .enter 2]).2 _ _ rfl).2⟩

end Guard

end DeclMerge
