import EventsCounter.Lib.Runs

/-!
# `KafkaLeadershipMonitor`

An instance calls itself the leader when the last rebalance it has been told of assigned it some
partition. It is told only while it polls: `check_leadership` polls until a poll times out
(`check_leadership_returns_iff`).

In a `Group` the coordinator assigns a partition only when nobody has it. An instance that has been
expelled without being told goes on calling itself the leader, and that is all that can make the
leaders more than the partitions (`leaders_le`).
-/

namespace EventsCounter

/-- The codes of `RdKafka::ErrorCode` a rebalance comes with. -/
inductive RebalanceCode
  | errAssignPartitions
  | errRevokePartitions
  | other (code : ℤ)
deriving DecidableEq

structure KafkaLeadershipMonitor where
  isLeader : Bool
deriving DecidableEq

namespace KafkaLeadershipMonitor

variable {P : Type*}

def init : KafkaLeadershipMonitor := ⟨false⟩

def rebalanceCb (err : RebalanceCode) (partitions : List P) : KafkaLeadershipMonitor :=
  ⟨err = .errAssignPartitions && partitions.length > 0⟩

/-! ### Polling -/

/-- What a call of `consume` meets: the rebalances served in it, oldest first, and whether it times out. -/
structure Poll (P : Type*) where
  served : List (RebalanceCode × List P)
  timedOut : Bool

def consume (monitor : KafkaLeadershipMonitor) (poll : Poll P) : KafkaLeadershipMonitor :=
  poll.served.foldl (fun _ rebalance => rebalanceCb rebalance.1 rebalance.2) monitor

/-- The `k`-th call of `consume` is answered by `answer k timeout`. The loop ends in a monitor and the
timeouts it has used; `none` is that it has not ended yet. -/
def poll (answer : ℕ → ℤ → Poll P) : ℕ → ℕ → ℤ → KafkaLeadershipMonitor → Option (KafkaLeadershipMonitor × List ℤ)
  | 0, _, _, _ => none
  | fuel + 1, k, timeout, monitor =>
    let message := answer k timeout
    let monitor := monitor.consume message
    if message.timedOut then some (monitor, [timeout])
    else (poll answer fuel (k + 1) 0 monitor).map fun r => (r.1, timeout :: r.2)

def checkLeadership (answer : ℕ → ℤ → Poll P) (timeout : ℤ) (fuel : ℕ) (monitor : KafkaLeadershipMonitor) :
    Option (Bool × List ℤ) :=
  (poll answer fuel 0 timeout monitor).map fun r => (r.1.isLeader, r.2)

/-- Only the first poll waits. -/
def timeoutAt (timeout : ℤ) (k : ℕ) : ℤ := if k = 0 then timeout else 0

/-- Everything served in the polls `k, …, k + n`, the first of them with `timeout`. -/
def servedFrom (answer : ℕ → ℤ → Poll P) (k : ℕ) (timeout : ℤ) (n : ℕ) : List (RebalanceCode × List P) :=
  (List.range (n + 1)).flatMap fun j => (answer (k + j) (timeoutAt timeout j)).served

/-- What the last rebalance has said, if there was one. -/
def verdict (monitor : KafkaLeadershipMonitor) (served : List (RebalanceCode × List P)) : Bool :=
  (served.getLast?.map fun rebalance => (rebalanceCb rebalance.1 rebalance.2).isLeader).getD monitor.isLeader

variable {answer : ℕ → ℤ → Poll P} {timeout : ℤ} {monitor monitor' : KafkaLeadershipMonitor} {k n fuel : ℕ}
  {timeouts : List ℤ}

@[simp] theorem timeoutAt_zero (k : ℕ) : timeoutAt 0 k = 0 := ite_self 0

theorem isLeader_foldl (served : List (RebalanceCode × List P)) (monitor : KafkaLeadershipMonitor) :
    (served.foldl (fun _ rebalance => rebalanceCb rebalance.1 rebalance.2) monitor).isLeader = verdict monitor served := by
  induction served using List.reverseRecOn with
  | nil => rfl
  | append_singleton served rebalance _ => simp [verdict]

theorem servedFrom_succ : servedFrom answer k timeout (n + 1) =
    (answer k timeout).served ++ servedFrom answer (k + 1) 0 n := by
  unfold servedFrom
  rw [List.range_succ_eq_map, List.flatMap_cons, List.flatMap_map]
  congr 1
  refine List.flatMap_congr fun j _ => ?_
  rw [timeoutAt_zero, show k + (j + 1) = k + 1 + j by omega]
  rfl

/-- The loop ends at the first poll that times out. -/
theorem poll_of_timedOut (hquiet : ∀ j < n, (answer (k + j) (timeoutAt timeout j)).timedOut = false)
    (hout : (answer (k + n) (timeoutAt timeout n)).timedOut = true) (hfuel : n < fuel) :
    poll answer fuel k timeout monitor = some ((servedFrom answer k timeout n).foldl
      (fun _ rebalance => rebalanceCb rebalance.1 rebalance.2) monitor, timeout :: List.replicate n 0) := by
  induction n generalizing k timeout monitor fuel with
  | zero =>
    obtain ⟨fuel, rfl⟩ : ∃ f, fuel = f + 1 := ⟨fuel - 1, by omega⟩
    have hout' : (answer k timeout).timedOut = true := hout
    rw [poll, if_pos hout']
    simp [servedFrom, timeoutAt, consume]
  | succ n ih =>
    obtain ⟨fuel, rfl⟩ : ∃ f, fuel = f + 1 := ⟨fuel - 1, by omega⟩
    have hfirst : (answer k timeout).timedOut = false := hquiet 0 (Nat.succ_pos n)
    have hrest := @ih 0 (monitor.consume (answer k timeout)) (k + 1) fuel
      (fun j hj => by rw [timeoutAt_zero, Nat.add_right_comm]; exact hquiet (j + 1) (Nat.succ_lt_succ hj))
      (by rw [timeoutAt_zero, Nat.add_right_comm]; exact hout) (by omega)
    simp only [poll, hfirst, Bool.false_eq_true, if_false, hrest, Option.map_some]
    rw [servedFrom_succ, List.foldl_append, List.replicate_succ]
    rfl

theorem exists_timedOut_of_poll (h : poll answer fuel k timeout monitor = some (monitor', timeouts)) :
    ∃ n, (answer (k + n) (timeoutAt timeout n)).timedOut = true := by
  induction fuel generalizing k timeout monitor monitor' timeouts with
  | zero => cases h
  | succ fuel ih =>
    simp only [poll] at h
    split at h
    · exact ⟨0, ‹_›⟩
    · obtain ⟨⟨_, ts⟩, hrest, -⟩ := Option.map_eq_some_iff.1 h
      obtain ⟨n, hn⟩ := ih hrest
      rw [timeoutAt_zero, Nat.add_right_comm] at hn
      exact ⟨n + 1, hn⟩

/-- `check_leadership` returns if and only if some poll times out, the first one waiting for the timeout
and the others not at all; then it has made the polls up to that one, and returns what the last
rebalance served in them has said, or what was said before if there was none. -/
theorem check_leadership_returns_iff (answer : ℕ → ℤ → Poll P) (timeout : ℤ) (monitor : KafkaLeadershipMonitor) :
    ((∃ fuel, (checkLeadership answer timeout fuel monitor).isSome) ↔
      ∃ n, (answer n (timeoutAt timeout n)).timedOut = true) ∧
    ∀ n, (answer n (timeoutAt timeout n)).timedOut = true →
      (∀ j < n, (answer j (timeoutAt timeout j)).timedOut = false) → ∀ fuel, n < fuel →
        checkLeadership answer timeout fuel monitor =
          some (verdict monitor (servedFrom answer 0 timeout n), timeout :: List.replicate n 0) := by
  have hreturns : ∀ n, (answer n (timeoutAt timeout n)).timedOut = true →
      (∀ j < n, (answer j (timeoutAt timeout j)).timedOut = false) → ∀ fuel, n < fuel →
        checkLeadership answer timeout fuel monitor =
          some (verdict monitor (servedFrom answer 0 timeout n), timeout :: List.replicate n 0) := by
    intro n hout hquiet fuel hfuel
    rw [checkLeadership, poll_of_timedOut (by simpa using hquiet) (by simpa using hout) hfuel, Option.map_some,
      isLeader_foldl]
  refine ⟨⟨?_, ?_⟩, hreturns⟩
  · rintro ⟨fuel, hfuel⟩
    rw [checkLeadership, Option.isSome_map, Option.isSome_iff_exists] at hfuel
    obtain ⟨⟨monitor', timeouts⟩, hpoll⟩ := hfuel
    obtain ⟨n, hn⟩ := exists_timedOut_of_poll hpoll
    exact ⟨n, by simpa using hn⟩
  · intro hexists
    classical
    refine ⟨Nat.find hexists + 1, ?_⟩
    rw [hreturns _ (Nat.find_spec hexists) (fun j hj => by simpa using Nat.find_min hexists hj) _ (Nat.lt_succ_self _)]
    rfl

end KafkaLeadershipMonitor

/-! ### A group of instances -/

/-- The instances `ι` of a group, and who has which of the partitions `P` as the coordinator sees it. -/
structure Group (ι P : Type*) where
  monitors : ι → KafkaLeadershipMonitor
  owner : P → Option ι
  /-- Who has been expelled and has not been told of it yet. -/
  expelled : Finset ι

inductive GroupStep (ι P : Type*)
  | assign (i : ι) (partitions : List P)
  | revoke (i : ι) (partitions : List P)
  | fail (i : ι) (code : ℤ) (partitions : List P)
  | expel (i : ι)

namespace Group

variable {ι P : Type*} [Fintype ι] [DecidableEq ι] [Fintype P] [DecidableEq P]

def init : Group ι P := ⟨fun _ => .init, fun _ => none, ∅⟩

/-- What the owner map becomes when `i` has no partition any more. -/
def release (owner : P → Option ι) (i : ι) (p : P) : Option ι := if owner p = some i then none else owner p

def step (g : Group ι P) : GroupStep ι P → Option (Group ι P)
  | .assign i partitions =>
    if (∀ p ∈ partitions, g.owner p = none) ∧ ∀ p, g.owner p ≠ some i then
      some {
        monitors := Function.update g.monitors i (.rebalanceCb .errAssignPartitions partitions)
        owner := fun p => if p ∈ partitions then some i else g.owner p
        expelled := g.expelled.erase i
      }
    else none
  | .revoke i partitions =>
    some {
      monitors := Function.update g.monitors i (.rebalanceCb .errRevokePartitions partitions)
      owner := release g.owner i
      expelled := g.expelled.erase i
    }
  | .fail i code partitions =>
    some {
      monitors := Function.update g.monitors i (.rebalanceCb (.other code) partitions)
      owner := release g.owner i
      expelled := g.expelled.erase i
    }
  | .expel i => some { g with owner := release g.owner i, expelled := insert i g.expelled }

def leaders (g : Group ι P) : Finset ι := Finset.univ.filter fun i => (g.monitors i).isLeader

/-- Who has been told of its last rebalance is the leader if it has a partition. -/
def Inv (g : Group ι P) : Prop := ∀ i, i ∉ g.expelled → ((g.monitors i).isLeader = true ↔ ∃ p, g.owner p = some i)

variable {g g' : Group ι P} {i j : ι} {l : GroupStep ι P}

omit [Fintype ι] [Fintype P] [DecidableEq P] in
theorem release_eq_some_iff {owner : P → Option ι} {p : P} : release owner i p = some j ↔ owner p = some j ∧ j ≠ i := by
  unfold release
  split
  · rename_i hp
    rw [hp, Option.some.injEq]
    constructor
    · intro h
      cases h
    · rintro ⟨rfl, hne⟩
      exact absurd rfl hne
  · rename_i hp
    refine ⟨fun h => ⟨h, ?_⟩, And.left⟩
    rintro rfl
    exact hp h

omit [Fintype ι] [Fintype P] [DecidableEq P] in
/-- A rebalance that leaves `i` without a partition. -/
theorem Inv.released (hi : Inv g) (monitor : KafkaLeadershipMonitor) (hmonitor : monitor.isLeader = false) :
    Inv ⟨Function.update g.monitors i monitor, release g.owner i, g.expelled.erase i⟩ := by
  intro j hj
  simp only [release_eq_some_iff]
  by_cases hji : j = i
  · subst hji
    simp [hmonitor]
  · have hnot : j ∉ g.expelled := fun h => hj (Finset.mem_erase.2 ⟨hji, h⟩)
    simp [hi j hnot, hji]

omit [Fintype ι] [Fintype P] in
/-- A rebalance that hands `i`, which has nothing, partitions nobody has. -/
theorem Inv.assigned {partitions : List P} (hi : Inv g) (hfree : ∀ p ∈ partitions, g.owner p = none)
    (hnone : ∀ p, g.owner p ≠ some i) :
    Inv ⟨Function.update g.monitors i (.rebalanceCb .errAssignPartitions partitions),
      fun p => if p ∈ partitions then some i else g.owner p, g.expelled.erase i⟩ := by
  intro j hj
  dsimp only
  by_cases hji : j = i
  · subst hji
    simp only [Function.update_self, KafkaLeadershipMonitor.rebalanceCb]
    constructor
    · intro hlen
      obtain ⟨p, hp⟩ := List.exists_mem_of_length_pos (by simpa using hlen)
      exact ⟨p, by simp [hp]⟩
    · rintro ⟨p, hp⟩
      split at hp
      · simpa using List.length_pos_of_mem ‹_›
      · exact absurd hp (hnone p)
  · have hnot : j ∉ g.expelled := fun h => hj (Finset.mem_erase.2 ⟨hji, h⟩)
    rw [Function.update_of_ne hji, hi j hnot]
    refine exists_congr fun p => ?_
    split
    · rename_i hp
      simp [hfree p hp, Ne.symm hji]
    · rfl

omit [Fintype ι] in
theorem inv_step (hi : Inv g) (h : step g l = some g') : Inv g' := by
  cases l with
  | assign i partitions =>
    simp only [step] at h
    split at h
    · rename_i hfree
      cases h
      exact hi.assigned hfree.1 hfree.2
    · cases h
  | revoke i partitions =>
    cases h
    exact hi.released _ rfl
  | fail i code partitions =>
    cases h
    exact hi.released _ rfl
  | expel i =>
    cases h
    intro j hj
    rw [Finset.mem_insert, not_or] at hj
    simp only [release_eq_some_iff]
    rw [hi j hj.2]
    simp [hj.1]

/-- Whatever the order of the rebalances: the instances that call themselves the leader are no more than
the partitions and those that have been expelled and not told; and who has been told is the leader if
and only if it has a partition. -/
theorem leaders_le (ls : List (GroupStep ι P)) (g : Group ι P) (h : Runs.run step init ls = some g) :
    g.leaders.card ≤ Fintype.card P + g.expelled.card ∧
    ∀ i, i ∉ g.expelled → (i ∈ g.leaders ↔ ∃ p, g.owner p = some i) := by
  have hinit : Inv (init : Group ι P) := by
    intro i _
    constructor
    · intro hleader
      cases hleader
    · rintro ⟨p, hp⟩
      cases hp
  have hi : Inv g := Runs.run_invariant hinit (fun _ _ _ hi hs => inv_step hi hs) h
  have hiff : ∀ i, i ∉ g.expelled → (i ∈ g.leaders ↔ ∃ p, g.owner p = some i) := fun i hnot => by
    rw [leaders, Finset.mem_filter, hi i hnot]
    exact and_iff_right (Finset.mem_univ i)
  refine ⟨?_, hiff⟩
  have hsub : g.leaders ⊆ (Finset.univ.image g.owner).preimage some (Option.some_injective ι).injOn ∪ g.expelled := by
    intro i hleader
    by_cases hexpelled : i ∈ g.expelled
    · exact Finset.mem_union_right _ hexpelled
    · obtain ⟨p, hp⟩ := (hiff i hexpelled).1 hleader
      exact Finset.mem_union_left _ (Finset.mem_preimage.2 (Finset.mem_image.2 ⟨p, Finset.mem_univ p, hp⟩))
  have howners : ((Finset.univ.image g.owner).preimage some (Option.some_injective ι).injOn).card ≤ Fintype.card P := by
    refine (Finset.card_le_card_of_injOn some (fun i hi => Finset.mem_preimage.1 hi)
      (Option.some_injective ι).injOn).trans ?_
    exact Finset.card_image_le
  exact (Finset.card_le_card hsub).trans ((Finset.card_union_le _ _).trans (Nat.add_le_add_right howners _))

/-- The first instance is expelled, and the second takes the partition over before the first is told. -/
theorem leaders_le_expelled : ∃ g : Group (Fin 2) (Fin 1),
    Runs.run step init [.assign 0 [0], .expel 0, .assign 1 [0]] = some g ∧
    g.leaders.card = 2 ∧ g.leaders.card ≤ Fintype.card (Fin 1) + g.expelled.card := by
  refine ⟨_, rfl, by decide, ?_⟩
  exact (leaders_le [.assign 0 [0], .expel 0, .assign 1 [0]] _ rfl).1

end Group
end EventsCounter
