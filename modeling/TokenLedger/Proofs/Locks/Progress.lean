import Mathlib.Data.Fintype.EquivFin
import Mathlib.Data.Fintype.Sets
import Mathlib.Logic.Relation
import TokenLedger.Proofs.Locks.Exclusion

/-! # Locks cannot deadlock

A task that waits for another one waits for a slot that the other has taken, and so, as
slots are taken in the order of their addresses, what the other is to take next comes
after it (`below_of_waitsFor`).  Whoever follows a chain of waiting tasks meets greater
and greater addresses, never comes back, and ends at a task that can go on.

This is about tasks that acquire nothing while they hold something, which is what
`Step.start` asks of them.
-/

namespace TokenLedger

namespace LockTable

open Relation

variable {table : LockTable} {task other third : TaskId}

/-- Whether a task cannot go on until another one drops the slot that it is to take next.  A task
    to which the slot has been given does not wait for it, unless it has taken it before. -/
def WaitsFor (table : LockTable) (task other : TaskId) : Prop :=
  ∃ a ∈ table.acquisitions, a.task = task ∧ ∃ id, a.wanted.head? = some id ∧
    table.holder? id = some other ∧ (other = task → id ∈ a.taken)

/-- Whether the slot that an acquisition is to take next is free: nobody has it, or it has been
    given to the acquisition. -/
def Ready (table : LockTable) (a : Acquisition) : Prop :=
  ∃ id, a.wanted.head? = some id ∧
    (table.holder? id = none ∨ table.holder? id = some a.task ∧ id ∉ a.taken)

theorem not_below_self (id : SlotId) : ¬table.Below id id := by
  rintro ⟨key, named, key', named', less⟩
  cases named.symm.trans named'
  exact Bytes.lt_irrefl _ less

theorem Below.trans {id id' id'' : SlotId} (first : table.Below id id')
    (second : table.Below id' id'') : table.Below id id'' := by
  obtain ⟨key, named, between, named', less⟩ := first
  obtain ⟨between', named'', key', named''', less'⟩ := second
  cases named'.symm.trans named''
  exact ⟨key, named, key', named''', Bytes.lt_trans less less'⟩

namespace Sound

theorem below_next (sound : table.Sound) {a : Acquisition} (there : a ∈ table.acquisitions)
    {id id' : SlotId} (taken : id ∈ a.taken) (wanted : id' ∈ a.wanted) : table.Below id id' :=
  (List.pairwise_append.mp (sound.ordered a there)).2.2 id taken id' wanted

theorem not_taken (sound : table.Sound) {a : Acquisition} (there : a ∈ table.acquisitions)
    {id : SlotId} (wanted : id ∈ a.wanted) : id ∉ a.taken :=
  fun taken => not_below_self id (sound.below_next there taken wanted)

/-! ## Chains of waiting tasks -/

/-- The slot that is waited for has been taken: had it only been given to the other task, that
    would not be waiting. -/
theorem below_of_waitsFor (sound : table.Sound) {a b : Acquisition}
    (there : a ∈ table.acquisitions) (there' : b ∈ table.acquisitions) {id id' : SlotId}
    (next : a.wanted.head? = some id) (next' : b.wanted.head? = some id')
    (waits : table.WaitsFor a.task b.task) (waits' : table.WaitsFor b.task third) :
    table.Below id id' := by
  obtain ⟨a', there₁, same, id₁, next₁, holds, _⟩ := waits
  obtain rfl := sound.eq_of_task there₁ there same
  cases next.symm.trans next₁
  obtain ⟨b', there₂, same', id₂, next₂, holds', own⟩ := waits'
  obtain rfl := sound.eq_of_task there₂ there' same'
  cases next'.symm.trans next₂
  obtain ⟨b'', there₃, same'', has⟩ := sound.owner holds
  obtain rfl := sound.eq_of_task there₃ there' same''
  rcases has with taken | given
  · exact sound.below_next there' taken (List.mem_of_mem_head? next')
  · cases next'.symm.trans given
    obtain rfl := Option.some.inj (holds.symm.trans holds')
    exact sound.below_next there' (own rfl) (List.mem_of_mem_head? next')

theorem below_of_chain (sound : table.Sound) {a b : Acquisition} (there : a ∈ table.acquisitions)
    (there' : b ∈ table.acquisitions) {id id' : SlotId} (next : a.wanted.head? = some id)
    (next' : b.wanted.head? = some id') (chain : TransGen table.WaitsFor a.task b.task)
    (waits : table.WaitsFor b.task third) : table.Below id id' := by
  generalize last : b.task = task at chain
  induction chain generalizing b id' third with
  | single waits' =>
    subst last
    exact sound.below_of_waitsFor there there' next next' waits' waits
  | tail chain waits' ih =>
    subst last
    have ⟨c, there'', same, id'', next'', _⟩ := waits'
    subst same
    exact (ih there'' next'' waits' rfl).trans
      (sound.below_of_waitsFor there'' there' next'' next' waits' waits)

theorem not_waitsFor_chain (sound : table.Sound) (task : TaskId) :
    ¬TransGen table.WaitsFor task task := by
  intro chain
  obtain ⟨other, waits, _⟩ := TransGen.head'_iff.mp chain
  have ⟨a, there, same, id, next, _⟩ := waits
  subst same
  exact not_below_self id (sound.below_of_chain there there next next chain waits)

/-! ## Going on -/

theorem find?_eq_some (sound : table.Sound) {a : Acquisition} (there : a ∈ table.acquisitions) :
    table.find? a.task = some a := by
  cases found : table.find? a.task with
  | none => simpa using List.find?_eq_none.mp found a there
  | some b =>
    have same : b.task = a.task := by simpa using List.find?_some found
    rw [sound.eq_of_task (List.mem_of_find?_eq_some found) there same]

/-- A task takes a slot that is free for it. -/
theorem find?_take (sound : table.Sound) {a : Acquisition} (there : a ∈ table.acquisitions)
    (ready : table.Ready a) : ∃ id rest, a.wanted = id :: rest ∧
      (table.take a.task).find? a.task =
        some { a with taken := a.taken ++ [id], wanted := rest } := by
  obtain ⟨id, next, free⟩ := ready
  obtain ⟨rest, wanted⟩ := List.head?_eq_some_iff.mp next
  obtain ⟨task, taken, _⟩ := a
  cases wanted
  refine ⟨id, rest, rfl, ?_⟩
  dsimp only at free ⊢
  obtain ⟨slot, present⟩ : ∃ slot, table.slots[id]? = some slot :=
    ⟨_, List.getElem?_eq_getElem (sound.made_of_uses there (.inr (List.mem_of_mem_head? next)))⟩
  have holds : (slot.request task).holder = some task := by
    simp only [holder?, present, Option.bind_some] at free
    exact Slot.holder_request.mpr (free.elim (fun none => .inr ⟨none, rfl⟩) fun own => .inl own.1)
  have given : (table.slots.modify id (·.request task))[id]?.any (·.holder = some task) := by
    simp [present, holds]
  have found := sound.find?_eq_some there
  -- taking a slot changes one acquisition, and whose it is stays as it is
  have same (old : Acquisition) : decide ((if old.task = task then
      ({ task, taken := taken ++ [id], wanted := rest } : Acquisition) else old).task = task) =
      decide (old.task = task) := by
    by_cases same : old.task = task <;> simp [same]
  simp only [LockTable.take, found, given, if_true]
  rw [find?, List.find?_map, Function.comp_def]
  simp only [same]
  rw [← find?, found, Option.map_some, if_pos rfl]

/-- An acquisition that is not complete is ready, or waits for a task. -/
theorem ready_or_waits (sound : table.Sound) {a : Acquisition} (there : a ∈ table.acquisitions)
    (unfinished : a.isComplete = false) :
    table.Ready a ∨ ∃ b ∈ table.acquisitions, table.WaitsFor a.task b.task := by
  obtain ⟨id, rest, wanted⟩ : ∃ id rest, a.wanted = id :: rest := by
    exact List.exists_cons_of_ne_nil (by simpa [Acquisition.isComplete] using unfinished)
  have next : a.wanted.head? = some id := by rw [wanted, List.head?_cons]
  have untaken := sound.not_taken there (List.mem_of_mem_head? next)
  cases holds : table.holder? id with
  | none => exact .inl ⟨id, next, .inl holds⟩
  | some other =>
    obtain ⟨b, there', rfl, _⟩ := sound.owner holds
    by_cases own : b.task = a.task
    · exact .inl ⟨id, next, .inr ⟨own ▸ holds, untaken⟩⟩
    · exact .inr ⟨b, there', a, there, rfl, id, next, holds, fun same => absurd same own⟩

/-- A chain of waiting tasks goes on as long as it meets tasks that are neither done nor ready.
    There are only so many tasks, and the chain meets none of them twice. -/
theorem exists_end_of_chain (sound : table.Sound) {a : Acquisition}
    (there : a ∈ table.acquisitions) : ∃ b ∈ table.acquisitions,
      ReflTransGen table.WaitsFor a.task b.task ∧ (b.isComplete = true ∨ table.Ready b) := by
  let Behind (b a : { a // a ∈ table.acquisitions }) : Prop :=
    TransGen table.WaitsFor a.1.task b.1.task
  -- there are finitely many acquisitions, so an order of them has an end in each direction
  have transitive : IsTrans _ Behind := ⟨fun _ _ _ first second => second.trans first⟩
  have irreflexive : Std.Irrefl Behind := ⟨fun _ => sound.not_waitsFor_chain _⟩
  have ends := Finite.wellFounded_of_trans_of_irrefl Behind
  suffices ∀ a : { a // a ∈ table.acquisitions }, ∃ b ∈ table.acquisitions,
      ReflTransGen table.WaitsFor a.1.task b.task ∧ (b.isComplete = true ∨ table.Ready b) from
    this ⟨a, there⟩
  intro a
  induction a using ends.induction with
  | _ a ih =>
    obtain ⟨a, there⟩ := a
    cases done : a.isComplete with
    | true => exact ⟨a, there, .refl, .inl done⟩
    | false =>
      rcases sound.ready_or_waits there done with ready | ⟨b, there', waits⟩
      · exact ⟨a, there, .refl, .inr ready⟩
      · obtain ⟨c, there'', chain, last⟩ := ih ⟨b, there'⟩ (.single waits)
        exact ⟨c, there'', chain.head waits, last⟩

end Sound

/-- However the tasks have got where they are, each one that is not done waits, if for anybody,
    by way of others for one that is done and can drop what it holds, or for which the next slot
    is free, and which takes it at its next turn.  No task waits for itself, by way of others or
    at once, as it would for an address that it holds. -/
theorem no_deadlock (reachable : Reachable table) :
    (∀ a ∈ table.acquisitions, a.isComplete = false → ∃ b ∈ table.acquisitions,
      ReflTransGen table.WaitsFor a.task b.task ∧
        (b.isComplete = true ∨ table.Ready b ∧ ∃ id rest, b.wanted = id :: rest ∧
          (table.take b.task).find? b.task =
            some { b with taken := b.taken ++ [id], wanted := rest })) ∧
    (∀ task, ¬TransGen table.WaitsFor task task) ∧
    ∀ task key, table.Holds task key → ¬table.Awaits task key := by
  have sound := reachable.sound
  refine ⟨fun a there unfinished => ?_, sound.not_waitsFor_chain, ?_⟩
  · obtain ⟨b, there', chain, last⟩ := sound.exists_end_of_chain there
    refine ⟨b, there', chain, last.imp_right fun ready => ⟨ready, sound.find?_take there' ready⟩⟩
  · rintro task key ⟨a, there, rfl, id, taken, named⟩ ⟨b, there', same, id', wanted, named'⟩
    obtain rfl := sound.eq_of_task there' there same
    have in_table := sound.used b there id (.inl taken)
    have in_table' := sound.used b there id' (.inr wanted)
    obtain rfl := sound.eq_of_key? in_table in_table' (named.trans named'.symm)
    exact sound.not_taken there wanted taken

/-- Three tasks that were given their addresses in orders which do not agree: the first waits for
    the second, and that for the third. -/
def queue : LockTable :=
  let key (n : UInt8) : Bytes32 := .replicate n
  let started := ((LockTable.empty.start 1 [key 2, key 1]).start 2 [key 1, key 2]).start 3
    [key 3, key 2, key 3]
  (((started.take 2).take 1).take 3).take 2

theorem reachable_queue : Reachable queue := by
  let key (n : UInt8) : Bytes32 := .replicate n
  have started := ((Reachable.empty.step (.start 1 [key 2, key 1] rfl)).step
    (.start 2 [key 1, key 2] (by decide))).step (.start 3 [key 3, key 2, key 3] (by decide))
  exact (((started.step (.take 2)).step (.take 1)).step (.take 3)).step (.take 2)

theorem no_deadlock_queue :
    queue.WaitsFor 1 2 ∧ queue.WaitsFor 2 3 ∧ ¬TransGen queue.WaitsFor 1 1 ∧
      ∃ b ∈ queue.acquisitions, ReflTransGen queue.WaitsFor 1 b.task ∧
        (b.isComplete = true ∨ queue.Ready b ∧ ∃ id rest, b.wanted = id :: rest ∧
          (queue.take b.task).find? b.task =
            some { b with taken := b.taken ++ [id], wanted := rest }) := by
  obtain ⟨goes_on, acyclic, _⟩ := no_deadlock reachable_queue
  have first : ⟨1, [], [0, 1]⟩ ∈ queue.acquisitions := by decide
  have second : ⟨2, [0], [1]⟩ ∈ queue.acquisitions := by decide
  exact ⟨⟨_, first, rfl, 0, rfl, by decide, by decide⟩,
    ⟨_, second, rfl, 1, rfl, by decide, by decide⟩, acyclic 1, goes_on _ first rfl⟩

end LockTable

end TokenLedger
