/-
The synchronisation of the registry as a diff: which devices `discover_and_init_hid_devices` shuts
down and which it sets up, in which order, and what the registry is afterwards
(`discover_exactDiff`). The function is a program over calls of procedures (`synchronise_expand`);
each call has a known effect on the registry (`calls_effect`), so the two loops are followed over
the list alone, by induction on the entries and on the ports. The loop over an index that removes
entries on the way is the one over the list (`disconnectFrom_eq`).
-/
import Octagram.Lib.Procedures
import Octagram.Usb.Setup
import Octagram.Usb.Schedule
import Mathlib.Data.List.ReduceOption

namespace Octagram.Usb

open Octagram.Lib

/-! ## The calls of the synchronisation -/

/-- What `discover_and_init_hid_devices` does one after the other: the scan of the ports, the accesses to
the registry, and the two functions for one device. -/
inductive SyncStep
  | portStates | lockRegistry | unlockRegistry
  | getActive | setActive (l : List ActivePort)
  | shutdownDevice (entry : ActivePort)
  | initOneDevice (rootPort speed : Nat)
  | initFailed

namespace SyncStep

/-- What a call returns. -/
@[reducible] def Result : SyncStep → Type
  | portStates => List (Nat × Nat)
  | getActive => List ActivePort
  | initOneDevice _ _ => Option ActivePort
  | _ => Unit

/-- Its body. -/
def body : (c : SyncStep) → KProg c.Result
  | portStates => Usb.portStates
  | lockRegistry => lock .activePorts .discoverRegistry
  | unlockRegistry => unlock .activePorts
  | getActive => Usb.getActive
  | setActive l => act (.setActive l)
  | shutdownDevice entry => Usb.shutdownDevice entry
  | initOneDevice rootPort speed => Usb.initOneDevice rootPort speed
  | initFailed => act .initFailed

end SyncStep

/-- Programs over these calls. -/
abbrev SyncProg := Prog SyncStep SyncStep.Result

/-- The program of one call. -/
abbrev perform (c : SyncStep) : SyncProg c.Result := Prog.call c

/-- The DISCONNECT loop. -/
def disconnects (states : List (Nat × Nat)) (kept : List ActivePort) : List ActivePort → SyncProg Unit
  | [] => pure ()
  | entry :: rest =>
    if states.any fun st => st.1 + 1 == entry.rootPort then
      disconnects states (kept ++ [entry]) rest
    else do
      perform (.setActive (kept ++ rest))
      perform (.shutdownDevice entry)
      disconnects states kept rest

/-- The CONNECT loop. -/
def connects : List (Nat × Nat) → SyncProg Unit
  | [] => pure ()
  | (port, speed) :: rest => do
    let active ← perform .getActive
    if active.any fun e => e.rootPort == port + 1 then
      connects rest
    else
      match ← perform (.initOneDevice (port + 1) speed) with
      | some entry =>
        let active ← perform .getActive
        perform (.setActive (active ++ [entry]))
        connects rest
      | none =>
        perform .initFailed
        connects rest

/-- `discover_and_init_hid_devices` over these calls. -/
def synchronise : SyncProg Unit := do
  let states ← perform .portStates
  perform .lockRegistry
  let active ← perform .getActive
  disconnects states [] active
  connects states
  perform .unlockRegistry

/-- The DISCONNECT loop as it is written, over an index into the list. -/
def disconnectFrom (states : List (Nat × Nat)) (i : Nat) (active : List ActivePort) : KProg Unit :=
  if h : i < active.length then
    if states.any fun st => st.1 + 1 == (active.get ⟨i, h⟩).rootPort then
      disconnectFrom states (i + 1) active
    else do
      act (.setActive (active.eraseIdx i))
      shutdownDevice (active.get ⟨i, h⟩)
      disconnectFrom states i (active.eraseIdx i)
  else
    pure ()
termination_by active.length - i
decreasing_by
  · omega
  · rw [List.length_eraseIdx_of_lt h]
    omega

theorem disconnectFrom_eq (states : List (Nat × Nat)) (kept rest : List ActivePort) :
    disconnectFrom states kept.length (kept ++ rest) = disconnectLoop states kept rest := by
  induction rest generalizing kept with
  | nil =>
    rw [disconnectFrom, dif_neg (by simp)]
    rfl
  | cons entry rest ih =>
    have hlt : kept.length < (kept ++ entry :: rest).length := by simp
    have hget : (kept ++ entry :: rest).get ⟨kept.length, hlt⟩ = entry := by simp
    have herase : (kept ++ entry :: rest).eraseIdx kept.length = kept ++ rest := by
      rw [List.eraseIdx_append_of_length_le (Nat.le_refl _), Nat.sub_self, List.eraseIdx_cons_zero]
    rw [disconnectFrom, dif_pos hlt, hget, herase, disconnectLoop]
    split
    · -- the entry stays, and the index moves over it
      have := ih (kept ++ [entry])
      rwa [List.length_append, List.length_singleton, List.append_assoc, List.singleton_append] at this
    · simp only [ih]

theorem disconnects_expand (states : List (Nat × Nat)) (kept rest : List ActivePort) :
    (disconnects states kept rest).expand SyncStep.body = disconnectLoop states kept rest := by
  induction rest generalizing kept with
  | nil => rfl
  | cons entry rest ih =>
    unfold disconnects disconnectLoop
    split
    · exact ih _
    · rw [Prog.expand_call_bind, Prog.expand_call_bind]
      simp only [ih]
      rfl

theorem connects_expand (todo : List (Nat × Nat)) : (connects todo).expand SyncStep.body = connectLoop todo := by
  induction todo with
  | nil => rfl
  | cons st rest ih =>
    unfold connects connectLoop
    rw [Prog.expand_call_bind]
    refine congrArg _ (funext fun active => ?_)
    split
    · exact ih
    · rw [Prog.expand_call_bind]
      refine congrArg _ (funext fun r => ?_)
      cases r with
      | none =>
        rw [Prog.expand_call_bind]
        simp only [ih]
        rfl
      | some entry =>
        rw [Prog.expand_call_bind]
        refine congrArg _ (funext fun active => ?_)
        rw [Prog.expand_call_bind]
        simp only [ih]
        rfl

/-- With the bodies in the place of the calls, this is the function. -/
theorem synchronise_expand : synchronise.expand SyncStep.body = discoverAndInitHidDevices := by
  unfold synchronise discoverAndInitHidDevices
  rw [Prog.expand_call_bind]
  refine congrArg _ (funext fun states => ?_)
  rw [Prog.expand_call_bind]
  refine congrArg _ (funext fun _ => ?_)
  rw [Prog.expand_call_bind]
  refine congrArg _ (funext fun active => ?_)
  rw [Prog.expand_bind, disconnects_expand]
  refine congrArg _ (funext fun _ => ?_)
  rw [Prog.expand_bind, connects_expand]
  exact congrArg _ (funext fun _ => Prog.expand_call _)

/-! ## One call -/

/-- What a call does to the registry, and what it returns. -/
def SyncStep.Effect : (c : SyncStep) → List ActivePort → c.Result → List ActivePort → Prop
  | .portStates, A, P, A' => A' = A ∧ P.Pairwise (fun p q => p.1 < q.1) ∧ ∀ st ∈ P, st.1 + 1 < 256
  | .getActive, A, r, A' => r = A ∧ A' = A
  | .setActive l, _, _, A' => A' = l
  | .initOneDevice rootPort _, A, r, A' => A' = A ∧ ∀ e ∈ r, e.rootPort = rootPort
  | .lockRegistry, A, _, A' | .unlockRegistry, A, _, A' | .shutdownDevice _, A, _, A' | .initFailed, A, _, A' => A' = A

/-- All operations but the write of the registry. -/
def Op.readsRegistry : Op → Bool
  | .setActive _ => false
  | _ => true

theorem readsRegistry_of_setup {o : Op} (h : o.setup = true) : o.readsRegistry = true := by
  cases o with
  | setActive => cases h
  | _ => rfl

section Calls

variable {R : Rules}

/-- The registry, and the number of ports, a `u8`. -/
def HasRegistry (A : List ActivePort) (s : Kernel) : Prop := s.activePorts = A ∧ s.hw.maxPorts < 256

theorem framed_hasRegistry (A : List ActivePort) : Framed R Op.readsRegistry (HasRegistry A) where
  stable s s' h he := ⟨(env_unmoved he).activePorts.trans h.1, (env_unmoved he).maxPorts ▸ h.2⟩
  frame o s r s' ho he h := by
    have hk := exec_keeps he
    have hne : ∀ l, o ≠ .setActive l := by
      rintro l rfl
      cases ho
    exact ⟨(hk.activePorts hne).trans h.1, hk.maxPorts ▸ h.2⟩

/-- The ports of a scan, in ascending order. -/
theorem scanPorts_returns (port n : Nat) :
    (scanPorts port n).Returns fun P => P.Pairwise (fun p q => p.1 < q.1) ∧ ∀ st ∈ P, port ≤ st.1 ∧ st.1 <
      port + n := by
  induction n generalizing port with
  | zero => exact ⟨.nil, fun st hst => absurd hst List.not_mem_nil⟩
  | succ n ih =>
    intro portsc
    refine (ih (port + 1)).seq ?_
    rintro rest ⟨hsorted, hrange⟩
    show (if portsc &&& 1 ≠ 0 then _ else rest).Pairwise _ ∧ ∀ st ∈ (if portsc &&& 1 ≠ 0 then _ else rest), _
    split
    · constructor
      · exact hsorted.cons fun st hst => (hrange st hst).1
      · rintro st hst
        rcases List.mem_cons.1 hst with rfl | hst
        · exact ⟨Nat.le_refl _, by omega⟩
        · have := hrange st hst
          omega
    · refine ⟨hsorted, fun st hst => ?_⟩
      have := hrange st hst
      omega

theorem portStates_effect (A : List ActivePort) :
    (machine R).Triple (HasRegistry A) portStates fun P s =>
      HasRegistry A s ∧ P.Pairwise (fun p q => p.1 < q.1) ∧ ∀ st ∈ P, st.1 + 1 < 256 := by
  have hA := framed_hasRegistry (R := R) A
  refine hA.act rfl fun _ => hA.act rfl fun _ => ?_
  refine Machine.triple_call hA.stable (fun n s => HasRegistry A s ∧ n < 256) ?_ fun n => ?_
  · rintro s n s' h - he
    cases he
    exact ⟨h, h.2⟩
  · have hn : Framed R Op.readsRegistry fun s => HasRegistry A s ∧ n < 256 :=
      ⟨fun s s' h he => ⟨hA.stable s s' h.1 he, h.2⟩, fun o s r s' ho he h => ⟨hA.frame o s r s' ho he h.1, h.2⟩⟩
    refine Machine.triple_bind
      ((hn.triple (scanPorts_all (fun _ => rfl) 0 n)).returns (scanPorts_returns 0 n)) fun P => ?_
    have hP : Framed R Op.readsRegistry fun s =>
        (P.Pairwise (fun p q => p.1 < q.1) ∧ ∀ st ∈ P, 0 ≤ st.1 ∧ st.1 < 0 + n) ∧ HasRegistry A s ∧ n < 256 :=
      ⟨fun s s' h he => ⟨h.1, hn.stable s s' h.2 he⟩, fun o s r s' ho he h => ⟨h.1, hn.frame o s r s' ho he h.2⟩⟩
    refine hP.act rfl fun _ => Machine.triple_ret hP.stable ?_
    rintro s ⟨⟨hsorted, hrange⟩, hs, hlt⟩
    refine ⟨hs, hsorted, fun st hst => ?_⟩
    have hle : st.1 + 1 ≤ n := by
      have := (hrange st hst).2
      rwa [Nat.zero_add] at this
    exact Nat.lt_of_le_of_lt hle hlt

theorem initOneDevice_returns (rootPort speed : Nat) :
    (initOneDevice rootPort speed).Returns fun r => ∀ e ∈ r, e.rootPort = rootPort := by
  refine .bind _ fun r => ?_
  split
  · exact fun e he => by cases he
  · refine .bind _ fun r => ?_
    split
    · exact fun e he => by cases he
    · refine (setupDevice_returns _ rootPort).seq fun e he e' he' => ?_
      cases he'
      exact he.1

/-- Each call has its effect. -/
theorem calls_effect {c : SyncStep} {s s' : Kernel} {A : List ActivePort} {r : c.Result} (hs : HasRegistry A s)
    (h : (machine R).Calls SyncStep.body c s r s') : ∃ A', c.Effect A r A' ∧ HasRegistry A' s' := by
  have hA := framed_hasRegistry (R := R) A
  have hop : ∀ o : Op, o.readsRegistry = true → (machine R).Triple (HasRegistry A) (Prog.call o) fun _ =>
    HasRegistry A :=
    fun o ho => hA.triple ((Prog.all_call _ o).2 ho)
  cases c with
  | portStates =>
    obtain ⟨hA', hP⟩ := portStates_effect A s hs r s' h
    exact ⟨A, ⟨rfl, hP⟩, hA'⟩
  | lockRegistry => exact ⟨A, rfl, hop (.lock .activePorts .discoverRegistry) rfl s hs r s' h⟩
  | unlockRegistry => exact ⟨A, rfl, hop (.unlock .activePorts) rfl s hs r s' h⟩
  | initFailed => exact ⟨A, rfl, hop .initFailed rfl s hs r s' h⟩
  | shutdownDevice entry =>
    exact ⟨A, rfl, hA.triple ((shutdownDevice_ops entry).mono fun _ => readsRegistry_of_setup) s hs r s' h⟩
  | initOneDevice rootPort speed =>
    have hops := (initOneDevice_ops rootPort speed).mono fun _ => readsRegistry_of_setup
    obtain ⟨hroot, hA'⟩ := (hA.triple hops).returns (initOneDevice_returns rootPort speed) s hs r s' h
    exact ⟨A, ⟨rfl, hroot⟩, hA'⟩
  | getActive =>
    have hget : (machine R).Triple (HasRegistry A) (Prog.call Op.getActive) fun r s => r = A ∧ HasRegistry A s := by
      refine Machine.triple_op hA.stable (fun r s => r = A ∧ HasRegistry A s) ?_ fun r => ?_
      · rintro s r s' hs - he
        cases he
        exact ⟨hs.1, hs⟩
      · exact Machine.triple_ret (fun s s' h he => ⟨h.1, hA.stable s s' h.2 he⟩) fun _ h => h
    obtain ⟨hr, hA'⟩ := hget s hs r s' h
    exact ⟨A, ⟨hr, rfl⟩, hA'⟩
  | setActive l =>
    have hset : (machine R).Triple (HasRegistry A) (Prog.call (Op.setActive l)) fun _ => HasRegistry l := by
      refine Machine.triple_op hA.stable (fun _ => HasRegistry l) ?_ fun _ => ?_
      · rintro s r s' hs - he
        cases he
        exact ⟨rfl, hs.2⟩
      · exact Machine.triple_ret (framed_hasRegistry l).stable fun _ h => h
    exact ⟨l, rfl, hset s hs r s' h⟩

end Calls

/-! ## The diff -/

/-- A call of one of the two functions for one device. -/
inductive DeviceCall
  | shutdown (entry : ActivePort)
  | init (rootPort speed : Nat)
  deriving DecidableEq, Repr

/-- The calls of a run, with what they returned. -/
abbrev SyncTrace := List (Σ c : SyncStep, c.Result)

/-- The calls of `shutdown_device` and `init_one_device` among all calls, in order. -/
def deviceCalls : SyncTrace → List DeviceCall
  | [] => []
  | ⟨.shutdownDevice entry, _⟩ :: tr => .shutdown entry :: deviceCalls tr
  | ⟨.initOneDevice rootPort speed, _⟩ :: tr => .init rootPort speed :: deviceCalls tr
  | _ :: tr => deviceCalls tr

/-- What the calls of `init_one_device` returned, in order. -/
def initResults : SyncTrace → List (Option ActivePort)
  | [] => []
  | ⟨.initOneDevice _ _, r⟩ :: tr => r :: initResults tr
  | _ :: tr => initResults tr

/-- The ports with a device, as the scan found them. -/
def snapshot : SyncTrace → List (Nat × Nat)
  | ⟨.portStates, states⟩ :: _ => states
  | _ => []

/-- The port of the entry is among those of the snapshot. -/
def Listed (P : List (Nat × Nat)) (e : ActivePort) : Prop := ∃ st ∈ P, st.1 + 1 = e.rootPort

/-- The port has an entry. -/
def HasEntry (A : List ActivePort) (st : Nat × Nat) : Prop := ∃ e ∈ A, e.rootPort = st.1 + 1

instance (P : List (Nat × Nat)) (e : ActivePort) : Decidable (Listed P e) := inferInstanceAs (Decidable (∃ _ ∈ _, _))

instance (A : List ActivePort) (st : Nat × Nat) : Decidable (HasEntry A st) := inferInstanceAs (Decidable (∃ _ ∈ _, _))

/-- From the registry `A` and the snapshot `P`, these calls with these results of `init_one_device` lead
to the registry `A'`: the entries whose port is gone are shut down, then the ports without an entry are
set up, each once and in order. -/
structure ExactDiff (A : List ActivePort) (P : List (Nat × Nat)) (calls : List DeviceCall)
    (results : List (Option ActivePort)) (A' : List ActivePort) : Prop where
  ascending : P.Pairwise fun p q => p.1 < q.1
  calls : calls = (A.filter fun e => ¬ Listed P e).map .shutdown ++
    (P.filter fun st => ¬ HasEntry A st).map fun st => .init (st.1 + 1) st.2
  registry : A' = (A.filter fun e => Listed P e) ++ results.reduceOption
  results : List.Forall₂ (fun (st : Nat × Nat) r => ∀ e ∈ r, e.rootPort = st.1 + 1)
    (P.filter fun st => ¬ HasEntry A st) results
  noOverflow : ∀ st ∈ P, st.1 + 1 < 256

theorem deviceCalls_append (tr tr' : SyncTrace) : deviceCalls (tr ++ tr') = deviceCalls tr ++ deviceCalls tr' := by
  fun_induction deviceCalls tr <;> simp_all [deviceCalls]

theorem initResults_append (tr tr' : SyncTrace) : initResults (tr ++ tr') = initResults tr ++ initResults tr' := by
  fun_induction initResults tr <;> simp_all [initResults]

theorem any_listed (P : List (Nat × Nat)) (e : ActivePort) :
    (P.any fun st => st.1 + 1 == e.rootPort) = decide (Listed P e) := by
  rw [Bool.eq_iff_iff, List.any_eq_true, decide_eq_true_eq]
  simp only [Listed, beq_iff_eq]

theorem any_hasEntry (A : List ActivePort) (port speed : Nat) :
    (A.any fun e => e.rootPort == port + 1) = decide (HasEntry A (port, speed)) := by
  rw [Bool.eq_iff_iff, List.any_eq_true, decide_eq_true_eq]
  simp only [HasEntry, beq_iff_eq]

/-- The DISCONNECT loop over the entries from the index on. -/
theorem disconnects_exec {P : List (Nat × Nat)} {kept rest A' : List ActivePort} {tr : SyncTrace} {u : Unit}
    (h : Prog.Exec SyncStep.Effect (disconnects P kept rest) (kept ++ rest) tr u A') :
    A' = kept ++ rest.filter (fun e => Listed P e) ∧
      deviceCalls tr = (rest.filter fun e => ¬ Listed P e).map .shutdown ∧ initResults tr = [] := by
  induction rest generalizing kept tr with
  | nil =>
    obtain ⟨rfl, -, rfl⟩ := h.ret_inv
    exact ⟨rfl, rfl, rfl⟩
  | cons entry rest ih =>
    unfold disconnects at h
    rw [any_listed] at h
    by_cases hl : Listed P entry
    · rw [if_pos (decide_eq_true hl)] at h
      have hk : kept ++ entry :: rest = kept ++ [entry] ++ rest := by rw [List.append_assoc, List.singleton_append]
      rw [hk] at h
      obtain ⟨hA, hcalls, hres⟩ := ih h
      refine ⟨?_, ?_, hres⟩
      · rw [hA, List.filter_cons_of_pos (by simpa using hl), List.append_assoc, List.singleton_append]
      · rw [hcalls, List.filter_cons_of_neg (by simpa using hl)]
    · rw [if_neg (fun hd => hl (of_decide_eq_true hd))] at h
      obtain ⟨u₁, A₁, tr₁, rfl, hset, h⟩ := h.call_inv
      obtain ⟨u₂, A₂, tr₂, rfl, hshut, h⟩ := h.call_inv
      -- the entry is out of the list, and the index stays
      have h₁ : A₁ = kept ++ rest := hset
      have h₂ : A₂ = A₁ := hshut
      rw [h₂, h₁] at h
      obtain ⟨hA, hcalls, hres⟩ := ih h
      refine ⟨?_, ?_, hres⟩
      · rw [hA, List.filter_cons_of_neg (by simpa using hl)]
      · show DeviceCall.shutdown entry :: deviceCalls tr₂ = _
        rw [hcalls, List.filter_cons_of_pos (by simpa using hl), List.map_cons]

/-- The CONNECT loop over ascending ports, from the registry `A` on. -/
theorem connects_exec {todo : List (Nat × Nat)} {A A' : List ActivePort} {tr : SyncTrace} {u : Unit}
    (hasc : todo.Pairwise fun p q => p.1 < q.1) (h : Prog.Exec SyncStep.Effect (connects todo) A tr u A') :
    A' = A ++ (initResults tr).reduceOption ∧
      deviceCalls tr = (todo.filter fun st => ¬ HasEntry A st).map (fun st => .init (st.1 + 1) st.2) ∧
      List.Forall₂ (fun (st : Nat × Nat) r => ∀ e ∈ r, e.rootPort = st.1 + 1) (todo.filter fun st => ¬ HasEntry A st)
        (initResults tr) := by
  induction todo generalizing A tr with
  | nil =>
    obtain ⟨rfl, -, rfl⟩ := h.ret_inv
    exact ⟨(List.append_nil _).symm, rfl, .nil⟩
  | cons st rest ih =>
    obtain ⟨port, speed⟩ := st
    obtain ⟨hlt, hasc⟩ := List.pairwise_cons.1 hasc
    unfold connects at h
    obtain ⟨active, A₁, tr₁, rfl, ⟨hr, h₁⟩, h⟩ := h.call_inv
    rw [hr, h₁, any_hasEntry A port speed] at h
    by_cases he : HasEntry A (port, speed)
    · rw [if_pos (decide_eq_true he)] at h
      obtain ⟨hA, hcalls, hres⟩ := ih hasc h
      rw [List.filter_cons_of_neg (by simpa using he)]
      exact ⟨hA, hcalls, hres⟩
    · rw [if_neg (fun hd => he (of_decide_eq_true hd))] at h
      obtain ⟨r, A₂, tr₂, rfl, ⟨h₂, hroot⟩, h⟩ := h.call_inv
      rw [List.filter_cons_of_pos (by simpa using he)]
      cases r with
      | none =>
        obtain ⟨u₃, A₃, tr₃, rfl, h₃, h⟩ := h.call_inv
        have h₃ : A₃ = A₂ := h₃
        rw [h₃, h₂] at h
        obtain ⟨hA, hcalls, hres⟩ := ih hasc h
        refine ⟨?_, ?_, .cons hroot hres⟩
        · show A' = A ++ (none :: initResults tr₃).reduceOption
          rw [List.reduceOption_cons_of_none]
          exact hA
        · show DeviceCall.init (port + 1) speed :: deviceCalls tr₃ = _
          rw [hcalls, List.map_cons]
      | some entry =>
        obtain ⟨active', A₃, tr₃, rfl, ⟨hr', h₃⟩, h⟩ := h.call_inv
        obtain ⟨u₄, A₄, tr₄, rfl, h₄, h⟩ := h.call_inv
        have h₄ : A₄ = active' ++ [entry] := h₄
        rw [h₄, hr', h₂] at h
        obtain ⟨hA, hcalls, hres⟩ := ih hasc h
        have hentry : entry.rootPort = port + 1 := hroot entry rfl
        -- the new entry is for none of the ports to come
        have hsame : ∀ st ∈ rest, (decide ¬ HasEntry (A ++ [entry]) st) = decide ¬ HasEntry A st := by
          rintro st hst
          have hne := hlt st hst
          refine decide_eq_decide.2 (not_congr ⟨?_, ?_⟩)
          · rintro ⟨e, hm, he⟩
            rcases List.mem_append.1 hm with hm | hm
            · exact ⟨e, hm, he⟩
            · rw [List.mem_singleton.1 hm, hentry] at he
              omega
          · rintro ⟨e, hm, he⟩
            exact ⟨e, List.mem_append_left _ hm, he⟩
        rw [List.filter_congr hsame] at hcalls hres
        refine ⟨?_, ?_, .cons hroot hres⟩
        · show A' = A ++ (some entry :: initResults tr₄).reduceOption
          rw [List.reduceOption_cons_of_some, hA, List.append_assoc, List.singleton_append]
        · show DeviceCall.init (port + 1) speed :: deviceCalls tr₄ = _
          rw [hcalls, List.map_cons]

/-- An entry with a listed port is not removed. -/
theorem hasEntry_filter {A : List ActivePort} {P : List (Nat × Nat)} {st : Nat × Nat} (hst : st ∈ P) :
    HasEntry (A.filter fun e => Listed P e) st ↔ HasEntry A st := by
  constructor
  · rintro ⟨e, he, hroot⟩
    exact ⟨e, (List.mem_filter.1 he).1, hroot⟩
  · rintro ⟨e, he, hroot⟩
    exact ⟨e, List.mem_filter.2 ⟨he, decide_eq_true ⟨st, hst, hroot.symm⟩⟩, hroot⟩

/-- The whole function, over the registry. -/
theorem synchronise_exec {A A' : List ActivePort} {tr : SyncTrace} {u : Unit}
    (h : Prog.Exec SyncStep.Effect synchronise A tr u A') :
    ExactDiff A (snapshot tr) (deviceCalls tr) (initResults tr) A' := by
  obtain ⟨P, A₁, tr₁, rfl, ⟨h₁, hasc, hno⟩, h⟩ := h.call_inv
  obtain ⟨u₂, A₂, tr₂, rfl, h₂, h⟩ := h.call_inv
  obtain ⟨active, A₃, tr₃, rfl, ⟨hr, h₃⟩, h⟩ := h.call_inv
  have h₂ : A₂ = A₁ := h₂
  rw [hr, h₃, h₂, h₁] at h
  obtain ⟨u₄, A₄, tr₄, tr₅, rfl, hdis, h⟩ := h.bind_inv
  obtain ⟨hA₄, hcalls₄, hres₄⟩ := disconnects_exec hdis
  obtain ⟨u₅, A₅, tr₆, tr₇, rfl, hcon, h⟩ := h.bind_inv
  obtain ⟨hA₅, hcalls₆, hres₆⟩ := connects_exec hasc hcon
  -- the DISCONNECT loop removed no entry of a port of the snapshot
  have hnew : (P.filter fun st => ¬ HasEntry A₄ st) = P.filter fun st => ¬ HasEntry A st := by
    refine List.filter_congr fun st hst => decide_eq_decide.2 (not_congr ?_)
    rw [hA₄, List.nil_append]
    exact hasEntry_filter hst
  rw [hnew] at hcalls₆ hres₆
  cases h with
  | call h₇ hk =>
    obtain ⟨rfl, -, rfl⟩ := hk.ret_inv
    have h₇ : A' = A₅ := h₇
    have hcalls : deviceCalls (tr₄ ++ (tr₆ ++ [⟨SyncStep.unlockRegistry, ()⟩])) =
      deviceCalls tr₄ ++ deviceCalls tr₆ := by
      rw [deviceCalls_append, deviceCalls_append]
      exact congrArg _ (List.append_nil _)
    have hres : initResults (tr₄ ++ (tr₆ ++ [⟨SyncStep.unlockRegistry, ()⟩])) = initResults tr₆ := by
      rw [initResults_append, initResults_append, hres₄]
      exact List.append_nil _
    exact {
      ascending := hasc
      calls := by
        show deviceCalls (tr₄ ++ (tr₆ ++ [_])) = _
        rw [hcalls, hcalls₄, hcalls₆]
        rfl
      registry := by
        show A' = _ ++ (initResults (tr₄ ++ (tr₆ ++ [_]))).reduceOption
        rw [hres, h₇, hA₅, hA₄, List.nil_append]
        rfl
      results := by
        show List.Forall₂ _ _ (initResults (tr₄ ++ (tr₆ ++ [_])))
        rw [hres]
        exact hres₆
      noOverflow := hno }

namespace ExactDiff

variable {A A' A'' : List ActivePort} {P : List (Nat × Nat)} {calls calls' : List DeviceCall}
  {results results' : List (Option ActivePort)}

/-- The entries that `init_one_device` returned are for ports that had none, in ascending order. -/
theorem entries_of_results {l : List (Nat × Nat)} (hl : l.Pairwise fun p q => p.1 < q.1)
    (h : List.Forall₂ (fun (st : Nat × Nat) r => ∀ e ∈ r, e.rootPort = st.1 + 1) l results) :
    (results.reduceOption.map (·.rootPort)).Pairwise (· < ·) ∧
      ∀ e ∈ results.reduceOption, ∃ st ∈ l, st.1 + 1 = e.rootPort := by
  induction h with
  | nil => exact ⟨.nil, fun e he => absurd he List.not_mem_nil⟩
  | @cons st r l results hr _ ih =>
    obtain ⟨hlt, hl⟩ := List.pairwise_cons.1 hl
    obtain ⟨hsorted, hmem⟩ := ih hl
    cases r with
    | none =>
      rw [List.reduceOption_cons_of_none]
      refine ⟨hsorted, fun e he => ?_⟩
      obtain ⟨st', hst', hroot⟩ := hmem e he
      exact ⟨st', List.mem_cons_of_mem _ hst', hroot⟩
    | some entry =>
      have hentry := hr entry rfl
      rw [List.reduceOption_cons_of_some, List.map_cons]
      constructor
      · refine hsorted.cons fun x hx => ?_
        obtain ⟨e, he, rfl⟩ := List.mem_map.1 hx
        obtain ⟨st', hst', hroot⟩ := hmem e he
        have := hlt st' hst'
        omega
      · rintro e he
        rcases List.mem_cons.1 he with rfl | he
        · exact ⟨st, List.mem_cons_self, hentry.symm⟩
        · obtain ⟨st', hst', hroot⟩ := hmem e he
          exact ⟨st', List.mem_cons_of_mem _ hst', hroot⟩

theorem entries (h : ExactDiff A P calls results A') :
    (results.reduceOption.map (·.rootPort)).Pairwise (· < ·) ∧
      ∀ e ∈ results.reduceOption, ∃ st ∈ P.filter fun st => ¬ HasEntry A st, st.1 + 1 = e.rootPort :=
  entries_of_results (h.ascending.filter _) h.results

/-- Root ports stay distinct. -/
theorem distinct (h : ExactDiff A P calls results A') (hA : (A.map (·.rootPort)).Nodup) :
    (A'.map (·.rootPort)).Nodup := by
  obtain ⟨hsorted, hmem⟩ := h.entries
  rw [h.registry, List.map_append, List.nodup_append]
  refine ⟨hA.sublist (List.filter_sublist.map _), hsorted.imp fun hlt => Nat.ne_of_lt hlt, ?_⟩
  -- an entry that is new is for a port that had none
  rintro x hx y hy rfl
  obtain ⟨e, he, rfl⟩ := List.mem_map.1 hx
  obtain ⟨e', he', hroot⟩ := List.mem_map.1 hy
  obtain ⟨st, hst, hst'⟩ := hmem e' he'
  have hnew := of_decide_eq_true (List.mem_filter.1 hst).2
  exact hnew ⟨e, (List.mem_filter.1 he).1, by rw [← hroot, hst']⟩

/-- Each entry is for a port with a device. -/
theorem listed (h : ExactDiff A P calls results A') {e : ActivePort} (he : e ∈ A') : Listed P e := by
  rw [h.registry] at he
  rcases List.mem_append.1 he with he | he
  · exact of_decide_eq_true (List.mem_filter.1 he).2
  · obtain ⟨st, hst, hroot⟩ := h.entries.2 e he
    exact ⟨st, (List.mem_filter.1 hst).1, hroot⟩

/-- Where each `init_one_device` returned an entry, every port with a device has one. -/
theorem hasEntry (h : ExactDiff A P calls results A') (hsome : ∀ r ∈ results, r.isSome) {st : Nat × Nat}
    (hst : st ∈ P) : HasEntry A' st := by
  rw [h.registry]
  by_cases hold : HasEntry A st
  · obtain ⟨e, he, hroot⟩ := (hasEntry_filter hst).2 hold
    exact ⟨e, List.mem_append_left _ he, hroot⟩
  · have hl : st ∈ P.filter fun st => ¬ HasEntry A st := List.mem_filter.2 ⟨hst, by simpa using hold⟩
    obtain ⟨i, hi, hget⟩ := List.mem_iff_getElem.1 hl
    have hi' : i < results.length := h.results.length_eq ▸ hi
    obtain ⟨e, he⟩ := Option.isSome_iff_exists.1 (hsome _ (List.getElem_mem hi'))
    have hroot := h.results.get hi hi' e he
    rw [List.get_eq_getElem, hget] at hroot
    exact ⟨e, List.mem_append_right _ (List.reduceOption_mem_iff.2 (he ▸ List.getElem_mem hi')), hroot⟩

/-- A second diff against the same ports does nothing. -/
theorem again (h : ExactDiff A P calls results A') (hsome : ∀ r ∈ results, r.isSome)
    (h' : ExactDiff A' P calls' results' A'') : calls' = [] ∧ A'' = A' := by
  have hgone : (A'.filter fun e => ¬ Listed P e) = [] := by
    refine List.filter_eq_nil_iff.2 fun e he => ?_
    simpa using h.listed he
  have hkept : (A'.filter fun e => Listed P e) = A' := List.filter_eq_self.2 fun e he => decide_eq_true (h.listed he)
  have hnew : (P.filter fun st => ¬ HasEntry A' st) = [] := by
    refine List.filter_eq_nil_iff.2 fun st hst => ?_
    simpa using h.hasEntry hsome hst
  have hres := h'.results
  rw [hnew, List.forall₂_nil_left_iff] at hres
  constructor
  · rw [h'.calls, hgone, hnew]
    rfl
  · rw [h'.registry, hkept, hres]
    exact List.append_nil _

end ExactDiff

/-! ## Runs -/

/-- A run of `discover_and_init_hid_devices`, by its calls. -/
def SyncRun (R : Rules) (s : Kernel) (tr : SyncTrace) (s' : Kernel) : Prop :=
  ∃ s₁, synchronise.Exec ((machine R).Calls SyncStep.body) s tr () s₁ ∧
    (machine R).Runs ((.ret () : KProg Unit), s₁) (.ret (), s')

variable {R : Rules} {s s' : Kernel}

theorem syncRun_of_runs (h : (machine R).Runs (discoverAndInitHidDevices, s) (.ret (), s')) :
    ∃ tr, SyncRun R s tr s' := by
  rw [← synchronise_expand] at h
  obtain ⟨tr, s₁, hex, hend⟩ := Machine.exec_of_runs h
  exact ⟨tr, s₁, hex, hend⟩

theorem SyncRun.exactDiff {tr : SyncTrace} (h : SyncRun R s tr s') (hports : s.hw.maxPorts < 256) :
    ExactDiff s.activePorts (snapshot tr) (deviceCalls tr) (initResults tr) s'.activePorts := by
  obtain ⟨s₁, hex, hend⟩ := h
  have hsim : ∀ (c : SyncStep) (s : Kernel) (A : List ActivePort) (r : c.Result) (s₁ : Kernel), HasRegistry A s →
      (machine R).Calls SyncStep.body c s r s₁ → ∃ A', c.Effect A r A' ∧ HasRegistry A' s₁ :=
    fun c s A r s₁ hs hc => calls_effect hs hc
  obtain ⟨A', hA', hs₁⟩ := Prog.Exec.simulate hsim hex (show HasRegistry s.activePorts s from ⟨rfl, hports⟩)
  obtain ⟨-, hs'⟩ := (framed_hasRegistry A').stable.runs_ret hend hs₁
  rw [hs'.1]
  exact synchronise_exec hA'

/-- Every run is a sequence of calls that makes the registry follow the ports that the scan found: the
exact diff, with distinct root ports before and after. Where each `init_one_device` returned an entry, a
run from the registry it left that finds the same ports calls neither function and changes nothing. -/
theorem discover_exactDiff (R : Rules) {s s' : Kernel} (hports : s.hw.maxPorts < 256)
    (hdistinct : (s.activePorts.map (·.rootPort)).Nodup)
    (hr : (machine R).Runs (discoverAndInitHidDevices, s) (.ret (), s')) :
    (∃ tr, SyncRun R s tr s') ∧ ∀ tr, SyncRun R s tr s' →
      ExactDiff s.activePorts (snapshot tr) (deviceCalls tr) (initResults tr) s'.activePorts ∧
      (s'.activePorts.map (·.rootPort)).Nodup ∧
      ((∀ r ∈ initResults tr, r.isSome) → ∀ s₁ tr₁ s₁', s₁.activePorts = s'.activePorts → s₁.hw.maxPorts < 256 →
        SyncRun R s₁ tr₁ s₁' → snapshot tr₁ = snapshot tr →
          deviceCalls tr₁ = [] ∧ s₁'.activePorts = s₁.activePorts) := by
  refine ⟨syncRun_of_runs hr, fun tr htr => ?_⟩
  have hdiff := htr.exactDiff hports
  refine ⟨hdiff, hdiff.distinct hdistinct, ?_⟩
  rintro hsome s₁ tr₁ s₁' hA hports₁ htr₁ hP
  have hdiff₁ := htr₁.exactDiff hports₁
  rw [hA, hP] at hdiff₁
  rw [hA]
  exact hdiff.again hsome hdiff₁

/-- The device on the second of two ports was unplugged. -/
theorem discover_exactDiff_unplugged :
    ∃ s s' tr, SyncRun Rules.any s tr s' ∧ s.activePorts = [⟨1, 1, false, false⟩, ⟨2, 2, false, false⟩] ∧
      s'.activePorts = [⟨1, 1, false, false⟩] ∧
      ExactDiff s.activePorts (snapshot tr) (deviceCalls tr) (initResults tr) s'.activePorts := by
  obtain ⟨⟨⟩, s', hr, ht⟩ := exists_run (R := Rules.any)
    (ops 15 ++ [.answer 0 (completionTrb 1 2), .interrupt] ++ ops 8) discoverAndInitHidDevices
    { Kernel.start 2 (fun p => ⟨p = 0, false, 1, 0⟩) with activePorts := [⟨1, 1, false, false⟩, ⟨2, 2, false, false⟩] }
    (fun _ s => decide (s.activePorts = [⟨1, 1, false, false⟩])) (by decide +kernel)
  obtain ⟨⟨tr, htr⟩, hall⟩ := discover_exactDiff Rules.any (by decide) (by decide) hr
  exact ⟨_, s', tr, htr, rfl, of_decide_eq_true ht, (hall tr htr).1⟩

end Octagram.Usb
