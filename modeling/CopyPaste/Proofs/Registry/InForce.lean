import CopyPaste.Registry
import Mathlib.Data.List.Induction

/-!
# Registrations in force

Which registrations a registry holds after a run of calls, said from the calls alone: a
registration is in force when some call made it and no later call removed it. Its number is how
many registrations were made before it, so numbers grow from one registration to the next and
none is given twice, as long as there are numbers left.

* `Registry.InForce` — what a run of calls leaves in force;
* **`inForce_concat_register`**, **`inForce_concat_deregister`** — what one more call does to it;
* **`records_after`** — the entries of a registry after a run are the registrations in force;
* **`deregister_answer`** — the first removal of a registration succeeds, and no later one does.
-/

namespace CopyPaste

def RegistryCall.isRegister : RegistryCall → Bool
  | .register _ _ => true
  | .deregister _ => false

namespace Registry

/-- How many registrations a run of calls makes. -/
def registrations (calls : List RegistryCall) : Nat := calls.countP RegistryCall.isRegister

theorem registrations_append (early late : List RegistryCall) :
    registrations (early ++ late) = registrations early + registrations late :=
  List.countP_append

theorem registrations_le_length (calls : List RegistryCall) :
    registrations calls ≤ calls.length :=
  List.countP_le_length

/-- A registration is in force after a run of calls: one of them made it, its number is how many
were made before it, and no call since then removed it. -/
def InForce (calls : List RegistryCall) (e : Registration) : Prop :=
  ∃ before between, calls = before ++ .register e.selector e.provider :: between ∧
    e.id = registrations before ∧ .deregister e.id ∉ between

/-! ## One more call -/

/-- The last of some calls stands behind any other of them, or is it. -/
theorem concat_eq_append_cons {calls before between : List RegistryCall}
    {last call : RegistryCall} (h : calls ++ [last] = before ++ call :: between) :
    (calls = before ∧ last = call ∧ between = []) ∨
      ∃ between', between = between' ++ [last] ∧ calls = before ++ call :: between' := by
  rcases List.eq_nil_or_concat between with rfl | ⟨between', final, rfl⟩
  · obtain ⟨hcalls, hlast⟩ := List.append_inj' h rfl
    exact .inl ⟨hcalls, List.singleton_inj.mp hlast, rfl⟩
  · rw [List.concat_eq_append, ← List.cons_append, ← List.append_assoc] at h
    obtain ⟨hcalls, hlast⟩ := List.append_inj' h rfl
    obtain rfl := List.singleton_inj.mp hlast
    exact .inr ⟨between', List.concat_eq_append, hcalls⟩

theorem InForce.concat {calls : List RegistryCall} {e : Registration} (h : InForce calls e)
    {last : RegistryCall} (hlast : last ≠ .deregister e.id) : InForce (calls ++ [last]) e := by
  obtain ⟨before, between, rfl, hid, hkept⟩ := h
  refine ⟨before, between ++ [last], by simp, hid, fun hmem => ?_⟩
  rcases List.mem_append.mp hmem with hmem | hmem
  · exact hkept hmem
  · exact hlast (List.mem_singleton.mp hmem).symm

/-- **Registering adds a registration,** under the number that comes next. -/
theorem inForce_concat_register {calls : List RegistryCall} {selector : Selector}
    {provider : Provider} {e : Registration} :
    InForce (calls ++ [.register selector provider]) e ↔
      InForce calls e ∨ e = ⟨registrations calls, selector, provider⟩ := by
  constructor
  · rintro ⟨before, between, hcalls, hid, hkept⟩
    obtain ⟨rfl, hcall, rfl⟩ | ⟨between, rfl, rfl⟩ := concat_eq_append_cons hcalls
    · obtain ⟨rfl, rfl⟩ := RegistryCall.register.inj hcall
      exact .inr (by rw [← hid])
    · exact .inl ⟨before, between, rfl, hid, fun hmem => hkept (List.mem_append_left _ hmem)⟩
  · rintro (h | rfl)
    · exact h.concat (by simp)
    · exact ⟨calls, [], rfl, rfl, List.not_mem_nil⟩

/-- **Deregistering removes the registration of a number** and leaves all others. -/
theorem inForce_concat_deregister {calls : List RegistryCall} {id : Nat} {e : Registration} :
    InForce (calls ++ [.deregister id]) e ↔ InForce calls e ∧ e.id ≠ id := by
  constructor
  · rintro ⟨before, between, hcalls, hid, hkept⟩
    obtain ⟨-, hcall, -⟩ | ⟨between, rfl, rfl⟩ := concat_eq_append_cons hcalls
    · simp at hcall
    · refine ⟨⟨before, between, rfl, hid, fun hmem => hkept (List.mem_append_left _ hmem)⟩, ?_⟩
      rintro rfl
      exact hkept (List.mem_append_right _ (List.mem_singleton_self _))
  · rintro ⟨h, hne⟩
    exact h.concat (by simpa using hne.symm)

/-- Numbers are given once: whatever is in force has a number that was given before. -/
theorem InForce.id_lt {calls : List RegistryCall} {e : Registration} (h : InForce calls e) :
    e.id < registrations calls := by
  obtain ⟨before, between, rfl, hid, -⟩ := h
  have hone : 0 < registrations (.register e.selector e.provider :: between) :=
    List.countP_pos_iff.mpr ⟨_, List.mem_cons_self, rfl⟩
  rw [registrations_append, hid]
  omega

/-! ## Whole runs -/

/-- A registry holds what a run of calls leaves in force, the earliest first. -/
structure Records (r : Registry) (calls : List RegistryCall) : Prop where
  next : r.next = registrations calls
  mem : ∀ e, e ∈ r.entries ↔ InForce calls e
  ascending : r.entries.Pairwise fun a b => a.id < b.id

theorem Records.register {r : Registry} {calls : List RegistryCall} (h : r.Records calls)
    {selector : Selector} {provider : Provider} (hlength : calls.length + 1 < UInt64.size) :
    (r.register selector provider).Records (calls ++ [.register selector provider]) where
  next := by
    have hcount := registrations_le_length calls
    show (r.next + 1) % UInt64.size = _
    rw [h.next, Nat.mod_eq_of_lt (by omega), registrations_append]
    rfl
  mem := fun e => by
    show e ∈ r.entries ++ [_] ↔ _
    rw [List.mem_append, h.mem, inForce_concat_register, List.mem_singleton, h.next]
  ascending := by
    show (r.entries ++ [_]).Pairwise _
    rw [List.pairwise_append]
    refine ⟨h.ascending, List.pairwise_singleton _ _, fun a ha b hb => ?_⟩
    rw [List.mem_singleton.mp hb]
    show a.id < r.next
    rw [h.next]
    exact ((h.mem a).mp ha).id_lt

theorem Records.deregister {r : Registry} {calls : List RegistryCall} (h : r.Records calls)
    (id : Nat) : (r.deregister id).Records (calls ++ [.deregister id]) where
  next := by
    rw [registrations_append]
    exact h.next
  mem := fun e => by
    show e ∈ r.entries.filter _ ↔ _
    rw [List.mem_filter, h.mem, inForce_concat_deregister]
    simp
  ascending := h.ascending.filter _

/-- **A registry holds what is in force,** after every run of calls that numbers suffice for. -/
theorem records_after {calls : List RegistryCall} (hlength : calls.length < UInt64.size) :
    (({} : Registry).after calls).Records calls := by
  induction calls using List.reverseRecOn with
  | nil =>
      have hnone : ∀ e, ¬InForce [] e := by
        rintro e ⟨before, between, hcalls, -⟩
        simp at hcalls
      exact ⟨rfl, fun e => by simp [hnone], List.Pairwise.nil⟩
  | append_singleton calls call ih =>
      rw [List.length_append, List.length_singleton] at hlength
      rw [after_concat]
      have h := ih (by omega)
      cases call with
      | register selector provider => exact h.register hlength
      | deregister id => exact h.deregister id

/-! ## Answers -/

/-- Something is removed exactly when the number is that of an entry. -/
theorem size_deregister_ne_iff {r : Registry} {id : Nat} :
    (r.deregister id).size ≠ r.size ↔ ∃ e ∈ r.entries, e.id = id := by
  show (r.entries.filter _).length ≠ r.entries.length ↔ _
  rw [Ne, List.length_filter_eq_length_iff]
  simp

/-- No registration stands between two calls that gave the same number. -/
theorem eq_nil_of_registrations_eq {before between mid between' : List RegistryCall}
    {call call' : RegistryCall} (hcall : call.isRegister = true)
    (h : call :: between = mid ++ call' :: between')
    (hcount : registrations (before ++ mid) = registrations before) : mid = [] := by
  cases mid with
  | nil => rfl
  | cons first rest =>
      obtain ⟨rfl, -⟩ := List.cons.inj h
      have hone : 0 < registrations (call :: rest) :=
        List.countP_pos_iff.mpr ⟨call, List.mem_cons_self, hcall⟩
      rw [registrations_append] at hcount
      omega

/-- A number tells which call it was given by. -/
theorem between_unique {before between before' between' : List RegistryCall}
    {call call' : RegistryCall} (hcall : call.isRegister = true) (hcall' : call'.isRegister = true)
    (h : before ++ call :: between = before' ++ call' :: between')
    (hcount : registrations before = registrations before') : between = between' := by
  rcases List.append_eq_append_iff.mp h with ⟨mid, rfl, hmid⟩ | ⟨mid, rfl, hmid⟩
  · obtain rfl := eq_nil_of_registrations_eq hcall hmid hcount.symm
    exact (List.cons.inj hmid).2
  · obtain rfl := eq_nil_of_registrations_eq hcall' hmid hcount
    exact (List.cons.inj hmid).2.symm

/-- **The first removal of a registration succeeds, and no later one does.** `between` are the calls
since the one that made the registration. -/
theorem deregister_answer {before between : List RegistryCall} {selector : Selector}
    {provider : Provider}
    (hlength : (before ++ .register selector provider :: between).length < UInt64.size) :
    ((({} : Registry).after (before ++ .register selector provider :: between)).perform
        (.deregister (registrations before))).1 =
      .deregistered (decide (.deregister (registrations before) ∉ between)) := by
  have hrecords := records_after hlength
  have hfound : (∃ e ∈ (({} : Registry).after
        (before ++ .register selector provider :: between)).entries, e.id = registrations before) ↔
      .deregister (registrations before) ∉ between := by
    constructor
    · rintro ⟨e, he, hid⟩
      obtain ⟨before', between', hcalls, hid', hkept⟩ := (hrecords.mem e).mp he
      obtain rfl := between_unique rfl rfl hcalls (hid.symm.trans hid')
      rw [← hid]
      exact hkept
    · intro hkept
      exact ⟨⟨_, selector, provider⟩, (hrecords.mem _).mpr ⟨before, between, rfl, rfl, hkept⟩, rfl⟩
  have hremoved := size_deregister_ne_iff.trans hfound
  show RegistryAnswer.deregistered (_ != _) = _
  rw [RegistryAnswer.deregistered.injEq, Bool.eq_iff_iff, bne_iff_ne, decide_eq_true_iff]
  exact hremoved

end Registry

end CopyPaste
