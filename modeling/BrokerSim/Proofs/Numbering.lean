/-
The numbers of machines and tasks over a row of bundles. One numbering hands them all out, so bundles share none.
- `Bundle.Fits`: what the table promises of a bundle, sizes and task lengths field by field.
- `Numbering.Tiles`: bundles that take all numbers between two numberings, each once and in order. Every allocation does
  (`tiles_allocate`), rows of them add up (`Tiles.append`), so a whole row does (`tiles_bundles`).
- `Numbering.ids_tile`: from the first number on, a row of bundles leaves no gap and uses no number twice, whatever the
  classes; each bundle is the one that its class and the sizes of the earlier bundles name.
- `Numbering.after_lt_word`: numbers are words of 64 bits for the first 2 ^ 61 bundles.
-/
import BrokerSim.Workload.Bundle
import Mathlib.Tactic
import Mathlib.Algebra.Order.BigOperators.Group.List

namespace BrokerSim

/-! ## One bundle -/

/-- a machine of these sizes -/
structure Vm.Fits (vm : Vm) (s : Sizing) : Prop where
  mipsPerCore : vm.mipsPerCore = s.mipsPerCore
  cores : vm.cores = s.coresPerVm
  ramMb : vm.ramMb = s.ramMb
  bandwidth : vm.bandwidth = s.bandwidth
  diskMb : vm.diskMb = s.diskMb

/-- a task of these sizes, `index` tasks after the first -/
structure Task.Fits (task : Task) (s : Sizing) (index : Nat) : Prop where
  length : task.length = s.baseTaskLength + index * s.lengthIncrement
  cores : task.cores = s.coresPerTask
  inputSize : task.inputSize = s.inputSize
  outputSize : task.outputSize = s.outputSize

/-- a bundle with what the table has for a class -/
structure Bundle.Fits (b : Bundle) (c : WorkloadClass) : Prop where
  workload : b.workload = c
  vmCount : b.vms.length = c.sizing.vmCount
  taskCount : b.tasks.length = c.sizing.taskCount
  vms : ∀ vm ∈ b.vms, vm.Fits c.sizing
  tasks : ∀ (i : Nat) (task : Task), b.tasks[i]? = some task → task.Fits c.sizing i
  rising : b.tasks.Pairwise fun earlier later => earlier.length < later.length

/-- tasks of one bundle differ in length as long as the increment is positive -/
theorem Sizing.taskLength_strictMono {s : Sizing} (h : 0 < s.lengthIncrement) : StrictMono s.taskLength := by
  intro i j hij
  exact Nat.add_lt_add_left (Nat.mul_lt_mul_of_pos_right hij h) s.baseTaskLength

namespace WorkloadClass

variable (c : WorkloadClass) (firstVm firstTask : Nat)

theorem lengthIncrement_pos : 0 < c.sizing.lengthIncrement := by
  cases c <;> exact Nat.succ_pos _

theorem sizing_le : c.sizing.vmCount ≤ 7 ∧ c.sizing.taskCount ≤ 7 := by
  cases c <;> exact ⟨Nat.le_of_ble_eq_true rfl, Nat.le_of_ble_eq_true rfl⟩

@[simp]
theorem length_bundle_vms : (c.bundle firstVm firstTask).vms.length = c.sizing.vmCount := by
  simp only [bundle, List.length_map, List.length_range]

@[simp]
theorem length_bundle_tasks : (c.bundle firstVm firstTask).tasks.length = c.sizing.taskCount := by
  simp only [bundle, List.length_map, List.length_range]

/-- a bundle has what the table has for its class, wherever its numbers begin -/
theorem fits_bundle : (c.bundle firstVm firstTask).Fits c where
  workload := rfl
  vmCount := c.length_bundle_vms firstVm firstTask
  taskCount := c.length_bundle_tasks firstVm firstTask
  vms := by
    intro vm hvm
    obtain ⟨i, -, rfl⟩ := List.mem_map.1 hvm
    exact ⟨rfl, rfl, rfl, rfl, rfl⟩
  tasks := by
    intro i task htask
    obtain ⟨k, hk, rfl⟩ :
        ∃ k, (List.range c.sizing.taskCount)[i]? = some k ∧ c.sizing.task (firstTask + k) k = task := by
      simpa only [bundle, List.getElem?_map, Option.map_eq_some_iff] using htask
    obtain ⟨hi, hk⟩ := List.getElem?_eq_some_iff.1 hk
    rw [List.getElem_range] at hk
    subst hk
    exact ⟨rfl, rfl, rfl, rfl⟩
  rising := by
    refine List.pairwise_map.2 (List.pairwise_lt_range.imp ?_)
    intro i j hij
    exact Sizing.taskLength_strictMono c.lengthIncrement_pos hij

end WorkloadClass

namespace Numbering

/-- a bundle takes the next numbers -/
theorem ids_allocate (n : Numbering) (c : WorkloadClass) :
    (n.allocate c).1.vms.map Vm.id = List.range' n.nextVm (n.allocate c).1.vms.length ∧
      (n.allocate c).1.tasks.map Task.id = List.range' n.nextTask (n.allocate c).1.tasks.length := by
  unfold allocate WorkloadClass.bundle
  simp only [List.map_map, List.length_map, List.length_range]
  rw [List.range'_eq_map_range, List.range'_eq_map_range]
  exact ⟨rfl, rfl⟩

/-! ## A row of bundles -/

/-- the bundles of a row of classes, allocated one after another -/
def bundles : Numbering → List WorkloadClass → List Bundle
  | _, [] => []
  | n, c :: cs => (n.allocate c).1 :: (n.allocate c).2.bundles cs

/-- the numbers that are free after a row of classes -/
def after (n : Numbering) (cs : List WorkloadClass) : Numbering := cs.foldl (fun n c => (n.allocate c).2) n

/-- the machines of a row of bundles -/
def allVms (bs : List Bundle) : List Vm := bs.flatMap Bundle.vms

/-- the tasks of a row of bundles -/
def allTasks (bs : List Bundle) : List Task := bs.flatMap Bundle.tasks

/-- bundles that take all numbers from those of `n` on until those of `k` -/
structure Tiles (n : Numbering) (bs : List Bundle) (k : Numbering) : Prop where
  vms : (allVms bs).map Vm.id = List.range' n.nextVm (allVms bs).length
  tasks : (allTasks bs).map Task.id = List.range' n.nextTask (allTasks bs).length
  nextVm : k.nextVm = n.nextVm + (allVms bs).length
  nextTask : k.nextTask = n.nextTask + (allTasks bs).length

variable {n k l : Numbering} {bs ds : List Bundle}

theorem Tiles.nil (n : Numbering) : Tiles n [] n := ⟨rfl, rfl, rfl, rfl⟩

/-- what begins where the first ends adds to it -/
theorem Tiles.append (h : Tiles n bs k) (g : Tiles k ds l) : Tiles n (bs ++ ds) l := by
  have hvms : allVms (bs ++ ds) = allVms bs ++ allVms ds := List.flatMap_append
  have htasks : allTasks (bs ++ ds) = allTasks bs ++ allTasks ds := List.flatMap_append
  constructor
  · rw [hvms, List.map_append, List.length_append, h.vms, g.vms, h.nextVm, List.range'_append_1]
  · rw [htasks, List.map_append, List.length_append, h.tasks, g.tasks, h.nextTask, List.range'_append_1]
  · rw [g.nextVm, h.nextVm, hvms, List.length_append, Nat.add_assoc]
  · rw [g.nextTask, h.nextTask, htasks, List.length_append, Nat.add_assoc]

/-- **One allocation** takes the next numbers, and moves on by as many. -/
theorem tiles_allocate (n : Numbering) (c : WorkloadClass) : Tiles n [(n.allocate c).1] (n.allocate c).2 := by
  have hvms : allVms [(n.allocate c).1] = (n.allocate c).1.vms := List.flatMap_singleton _ _
  have htasks : allTasks [(n.allocate c).1] = (n.allocate c).1.tasks := List.flatMap_singleton _ _
  obtain ⟨vms, tasks⟩ := n.ids_allocate c
  refine ⟨?_, ?_, ?_, ?_⟩
  · rw [hvms, vms]
  · rw [htasks, tasks]
  · rw [hvms]
    rfl
  · rw [htasks]
    rfl

/-- **A row of allocations** takes all numbers from the first free ones on. -/
theorem tiles_bundles (n : Numbering) (cs : List WorkloadClass) : Tiles n (n.bundles cs) (n.after cs) := by
  induction cs generalizing n with
  | nil => exact .nil n
  | cons c cs ih => exact (n.tiles_allocate c).append (ih (n.allocate c).2)

/-- each class has its bundle -/
theorem fits_bundles (n : Numbering) (cs : List WorkloadClass) : List.Forall₂ Bundle.Fits (n.bundles cs) cs := by
  induction cs generalizing n with
  | nil => exact .nil
  | cons c cs ih => exact .cons (c.fits_bundle n.nextVm n.nextTask) (ih (n.allocate c).2)

/-- the first bundles are those of the first classes -/
theorem take_bundles (n : Numbering) (cs : List WorkloadClass) (i : Nat) :
    (n.bundles cs).take i = n.bundles (cs.take i) := by
  induction cs generalizing n i with
  | nil => rw [List.take_nil, bundles, List.take_nil]
  | cons c cs ih =>
    cases i with
    | zero => rfl
    | succ i => rw [bundles, List.take_succ_cons, List.take_succ_cons, bundles, ih]

/-- they end where the next one begins -/
theorem tiles_take (n : Numbering) (cs : List WorkloadClass) (i : Nat) :
    Tiles n ((n.bundles cs).take i) (n.after (cs.take i)) := by
  rw [take_bundles]
  exact n.tiles_bundles (cs.take i)

/-- a bundle is numbered from where those in front of it end -/
theorem getElem?_bundles (n : Numbering) (cs : List WorkloadClass) (i : Nat) :
    (n.bundles cs)[i]? = cs[i]?.map fun c => ((n.after (cs.take i)).allocate c).1 := by
  induction cs generalizing n i with
  | nil => rfl
  | cons c cs ih =>
    cases i with
    | zero => rfl
    | succ i => exact ih (n.allocate c).2 i

/-! ## From the first number on -/

/-- so many machines as the table has for the classes, and so many tasks -/
theorem length_all {cs : List WorkloadClass} (h : List.Forall₂ Bundle.Fits bs cs) :
    (allVms bs).length = (cs.map fun c => c.sizing.vmCount).sum ∧
      (allTasks bs).length = (cs.map fun c => c.sizing.taskCount).sum := by
  induction h with
  | nil => exact ⟨rfl, rfl⟩
  | cons fits _ ih =>
    rw [List.map_cons, List.map_cons, List.sum_cons, List.sum_cons, ← ih.1, ← ih.2, ← fits.vmCount, ← fits.taskCount]
    exact ⟨List.length_append, List.length_append⟩

/-- **Numbers tile the line.** Whatever labels the classes of a row were read from, in the table or not, the machines of
    its bundles are numbered 0, 1, 2 and so on, without a gap and none twice, and so are its tasks. Each class has a
    bundle of its own, with as many machines and tasks as the table has for it, of the sizes of the table, each task
    longer than the one before by the increment. And each bundle is the one that its class has when it is numbered from
    as many machines and tasks on as the bundles before it hold. -/
theorem ids_tile (cs : List WorkloadClass) :
    let bs := ({} : Numbering).bundles cs
    (allVms bs).map Vm.id = List.range (cs.map fun c => c.sizing.vmCount).sum ∧
      (allTasks bs).map Task.id = List.range (cs.map fun c => c.sizing.taskCount).sum ∧
      List.Forall₂ Bundle.Fits bs cs ∧
      ∀ i : Nat, bs[i]? = cs[i]?.map fun c => c.bundle (allVms (bs.take i)).length (allTasks (bs.take i)).length := by
  intro bs
  have tiles : Tiles {} bs (after {} cs) := tiles_bundles {} cs
  have fits : List.Forall₂ Bundle.Fits bs cs := fits_bundles {} cs
  obtain ⟨hvms, htasks⟩ := length_all fits
  refine ⟨?_, ?_, fits, ?_⟩
  · rw [← hvms, List.range_eq_range']
    exact tiles.vms
  · rw [← htasks, List.range_eq_range']
    exact tiles.tasks
  · intro i
    -- free numbers are counts of what was numbered, as the first number is zero
    have front : Tiles {} (bs.take i) (after {} (cs.take i)) := tiles_take {} cs i
    have hvm : (after {} (cs.take i)).nextVm = (allVms (bs.take i)).length := front.nextVm.trans (Nat.zero_add _)
    have htask : (after {} (cs.take i)).nextTask = (allTasks (bs.take i)).length :=
      front.nextTask.trans (Nat.zero_add _)
    calc bs[i]? = cs[i]?.map fun c => ((after {} (cs.take i)).allocate c).1 := getElem?_bundles {} cs i
      _ = cs[i]?.map fun c => c.bundle (after {} (cs.take i)).nextVm (after {} (cs.take i)).nextTask := rfl
      _ = cs[i]?.map fun c => c.bundle (allVms (bs.take i)).length (allTasks (bs.take i)).length := by rw [hvm, htask]

/-- two labels that the table does not know, around one that it does -/
example : (bundles {} (["matinee", "HEAVY", "gala"].map WorkloadClass.parse)).map
      (fun b => (b.vms.map Vm.id, b.tasks.map fun t => (t.id, t.length))) =
    [([0, 1], [(0, 300000), (1, 400000), (2, 500000)]),
      ([2, 3, 4, 5],
        [(3, 1000000), (4, 1050000), (5, 1100000), (6, 1150000), (7, 1200000), (8, 1250000), (9, 1300000)]),
      ([6, 7], [(10, 300000), (11, 400000), (12, 500000)])] := by
  decide

/-! ## How far the numbers reach -/

/-- numbers stay below 2 ^ 64 for the first 2 ^ 61 bundles, as no class has more than seven machines or tasks -/
theorem after_lt_word {cs : List WorkloadClass} (h : cs.length ≤ 2 ^ 61) :
    (after {} cs).nextVm < 2 ^ 64 ∧ (after {} cs).nextTask < 2 ^ 64 := by
  have tiles := tiles_bundles {} cs
  obtain ⟨hvms, htasks⟩ := length_all (fits_bundles {} cs)
  have few : ∀ count : WorkloadClass → Nat, (∀ c, count c ≤ 7) → (cs.map count).sum < 2 ^ 64 := by
    intro count hcount
    have hle : (cs.map count).sum ≤ (cs.map count).length • 7 := by
      refine List.sum_le_card_nsmul _ _ fun x hx => ?_
      obtain ⟨c, -, rfl⟩ := List.mem_map.1 hx
      exact hcount c
    rw [List.length_map, smul_eq_mul] at hle
    omega
  rw [tiles.nextVm, tiles.nextTask, Nat.zero_add, Nat.zero_add, hvms, htasks]
  exact ⟨few _ fun c => c.sizing_le.1, few _ fun c => c.sizing_le.2⟩

end Numbering

end BrokerSim
