import PodFabric.Proof.Rounds

/-!
# Epochs bind generations

Within one incarnation a published generation stands for as long as its epoch: the expectations
that the controller carries from round to round repeat it (`Binds`), and a round that adopts another
one advances the epoch (`epochs_bind_generations`).
-/

namespace PodFabric

/-- The controller is at the epoch or past it, and as long as it is at it, the rack is expected with
this generation and digest or not at all. -/
structure Binds (epoch : PodEpoch) (rack : RackId) (generation : RackGeneration) (digest : Digest)
    (w : World) : Prop where
  reached : epoch.value.toNat ≤ w.controller.epoch.value.toNat
  expected : w.controller.epoch = epoch → ∀ e, recorded w.controller.expectations rack = some e →
    e.generation = generation ∧ e.digest = digest

/-- An epoch is its number. -/
theorem PodEpoch.eq_of_toNat {a b : PodEpoch} (h : a.value.toNat = b.value.toNat) : a = b :=
  Sequence.value_injective (UInt64.toNat_inj.1 h)

section Bind
variable {epoch : PodEpoch} {rack : RackId} {generation : RackGeneration} {digest : Digest}
  {w : World} {call : Call} {request : CompositionRequest} {st : PodState} {m : MemberVerdict}

/-- A binding holds of every world with the same epoch and expectations. -/
theorem Binds.same {w' : World} (h : Binds epoch rack generation digest w)
    (hepoch : w'.controller.epoch = w.controller.epoch)
    (hexp : w'.controller.expectations = w.controller.expectations) :
    Binds epoch rack generation digest w' :=
  ⟨hepoch ▸ h.reached, fun heq e he => h.expected (hepoch ▸ heq) e (hexp ▸ he)⟩

/-- A round that ends at the epoch started at it and adopted nothing. -/
theorem Binds.unmoved (h : Binds epoch rack generation digest w) (hasks : AsksFor w request)
    (hcompose : compose request = .ok st) (hepoch : st.epoch = epoch) :
    w.controller.epoch = epoch ∧ ¬ AdoptsSome request st := by
  classical
  have hadvance := compose_epoch hcompose
  rw [hasks.epoch, hepoch] at hadvance
  have hreached := h.reached
  by_cases hadopts : AdoptsSome request st
  · rw [if_pos hadopts] at hadvance
    omega
  · rw [if_neg hadopts] at hadvance
    exact ⟨PodEpoch.eq_of_toNat hadvance.symm, hadopts⟩

/-- A round keeps the binding. -/
theorem Binds.published (h : Binds epoch rack generation digest w) (hasks : AsksFor w request)
    (hcompose : compose request = .ok st) {w' : World} (hpub : Publishes w st w') :
    Binds epoch rack generation digest w' := by
  classical
  refine ⟨?_, fun heq e he => ?_⟩
  · have hadvance := compose_epoch hcompose
    have hreached := h.reached
    rw [hasks.epoch] at hadvance
    rw [hpub.epoch]
    omega
  · rw [hpub.epoch] at heq
    obtain ⟨hat, hnone⟩ := h.unmoved hasks hcompose heq
    rw [hpub.expectations] at he
    obtain ⟨hmem, hrack⟩ := recorded_rack he
    obtain ⟨m, hm, hderived⟩ := mem_deriveExpectations.1 hmem
    have hmrack : m.rack = rack := (derivedExpectation_rack hderived).symm.trans hrack
    cases hs : m.status with
    | established =>
      obtain ⟨record, hby⟩ := compose_established hcompose hm hs
      obtain ⟨e', he', hg, hd⟩ := hby.repeats fun hadopts => hnone ⟨m, hm, hs, hadopts⟩
      rw [hasks.expectations, hmrack] at he'
      obtain ⟨hg', hd'⟩ := h.expected hat e' he'
      rw [derived_of_established hs, Option.some.injEq] at hderived
      rw [← hderived]
      exact ⟨hg.trans hg', hd.trans hd'⟩
    | retiring =>
      rw [derived_of_retiring hs] at hderived
      cases hderived
    | joining | stale | fenced | conflicting | unsupported | missing =>
      rw [derived_of_other (by simp [hs]) (by simp [hs]), hmrack] at hderived
      exact h.expected hat e hderived

/-- A round that establishes a rack binds its generation to the epoch it publishes. -/
theorem Binds.establish (hcompose : compose request = .ok st) (hm : m ∈ st.members)
    (hs : m.status = .established) {w' : World} (hpub : Publishes w st w') :
    Binds st.epoch m.rack m.generation m.digest w' := by
  refine ⟨by rw [hpub.epoch], fun _ e he => ?_⟩
  rw [hpub.expectations, recorded_derive hcompose hm, derived_of_established hs,
    Option.some.injEq] at he
  rw [← he]
  exact ⟨rfl, rfl⟩

/-- Closing leaves the epoch, the expectations and the options. -/
theorem close_standing {c : PodController} {disk : DurableState} {env : Env} :
    (c.close disk env).controller.epoch = c.epoch ∧
      (c.close disk env).controller.expectations = c.expectations ∧
      (c.close disk env).controller.options = c.options ∧
      (c.close disk env).controller.isOpen = false ∧ (c.close disk env).disk = disk := by
  unfold PodController.close
  split
  · next h => exact ⟨rfl, rfl, rfl, by simpa using h, rfl⟩
  · dsimp only
    split <;> exact ⟨rfl, rfl, rfl, rfl, rfl⟩

/-- A call of the same incarnation keeps the binding. -/
theorem Binds.next (h : Binds epoch rack generation digest w)
    (hcall : call.op ≠ .«open» ∧ call.op ≠ .restart) :
    Binds epoch rack generation digest (w.next call) := by
  by_cases hop : call.op.operates = true
  · cases w.stepped call hop with
    | published request st _ asks composed _ publishes =>
      exact h.published (World.asksFor asks) composed publishes
    | unsaved _ _ _ _ same => exact h.same same.epoch same.expectations
    | idle _ same => exact h.same same.epoch same.expectations
  · obtain ⟨op, env⟩ := call
    cases op with
    | «open» => exact absurd rfl hcall.1
    | restart => exact absurd rfl hcall.2
    | close => exact h.same close_standing.1 close_standing.2.1
    | apply _ | setAdminState _ _ | clearAdminState _ | retire | mintAuthority _ _ _
    | revokeAuthority _ => exact absurd rfl hop

end Bind

open Classical in
/-- **Epochs bind generations.** Within one incarnation, two states published at one epoch give a
rack that is established in both the same generation and digest. The epoch after any composition is
one above the epoch before it if an established member is new or ahead of its expectation, and the
same otherwise, as natural numbers: past the largest epoch there is no composition. -/
theorem epochs_bind_generations :
    (∀ {w : World} {calls : List Call} {front middle back : List (World × Call)}
      {x y : World × Call} {st st' : PodState} {m m' : MemberVerdict},
      (∀ call ∈ calls, call.op ≠ .«open» ∧ call.op ≠ .restart) →
      w.trace calls = front ++ x :: middle ++ y :: back →
      x.1.published x.2 = some st → y.1.published y.2 = some st' → st.epoch = st'.epoch →
      m ∈ st.members → m' ∈ st'.members → m.rack = m'.rack →
      m.status = .established → m'.status = .established →
      m.generation = m'.generation ∧ m.digest = m'.digest) ∧
    ∀ {request : CompositionRequest} {st : PodState}, compose request = .ok st →
      st.epoch.value.toNat = request.context.epoch.value.toNat +
        if ∃ m ∈ st.members, m.status = .established ∧
          ∀ e ∈ request.context.expectations, e.rack = m.rack → e.generation < m.generation
        then 1 else 0 := by
  refine ⟨fun {w calls front middle back x y st st' m m'} hcalls htrace hx hy hepoch hm hm' hrack hs
    hs' => ?_, fun {request st} h => ?_⟩
  · obtain ⟨-, request, -, hcompose, hpub⟩ := World.round_of_published hx
    obtain ⟨-, request', hasks', hcompose', -⟩ := World.round_of_published hy
    have hbinds := Run.between htrace (Binds.establish hcompose hm hs hpub) fun z hz h =>
      have hz : z ∈ w.trace calls := by simp [htrace, hz]
      h.next (hcalls z.2 (Run.call_of_trace hz))
    have hasksFor := World.asksFor hasks'
    obtain ⟨hat, hnone⟩ := hbinds.unmoved hasksFor hcompose' hepoch.symm
    obtain ⟨record, hby⟩ := compose_established hcompose' hm' hs'
    obtain ⟨e, he, hg, hd⟩ := hby.repeats fun hadopts => hnone ⟨m', hm', hs', hadopts⟩
    rw [hasksFor.expectations, ← hrack] at he
    obtain ⟨hg', hd'⟩ := hbinds.expected hat e he
    exact ⟨hg'.symm.trans hg.symm, hd'.symm.trans hd.symm⟩
  · have hvalid := (validate_request_iff.1 (compose_eq_ok.1 h).1).2
    have hadopts (m : MemberVerdict) : Adopts (recorded request.context.expectations m.rack)
        m.generation ↔
        ∀ e ∈ request.context.expectations, e.rack = m.rack → e.generation < m.generation := by
      have hu := List.inj_on_of_nodup_map hvalid.unique
      unfold Adopts
      simp only [recorded_eq_some hu, and_imp]
    rw [compose_epoch h]
    simp only [AdoptsSome, hadopts]

/-- Two rounds of the same evidence: the racks are adopted in the first, and the second publishes
the same epoch and generations. -/
theorem sample_rounds_bind : ∃ st st',
    (Sample.world false).published Sample.round = some st ∧
    ((Sample.world false).next Sample.round).published Sample.round = some st' ∧
    st.epoch = ⟨1⟩ ∧ st'.epoch = ⟨1⟩ ∧ (∃ m ∈ st.members, m.status = .established) ∧
    ∀ m ∈ st.members, ∀ m' ∈ st'.members, m.rack = m'.rack → m.status = .established →
      m'.status = .established → m.generation = m'.generation ∧ m.digest = m'.digest := by
  let w := Sample.world false
  have hfirst : (w.published Sample.round).map PodState.epoch = some ⟨1⟩ := by decide +kernel
  have hsecond : ((w.next Sample.round).published Sample.round).map PodState.epoch = some ⟨1⟩ := by
    decide +kernel
  have hmember : (w.published Sample.round).any fun st =>
      st.members.any fun m => m.status = .established := by decide +kernel
  obtain ⟨st, hst, hepoch⟩ := Option.map_eq_some_iff.1 hfirst
  obtain ⟨st', hst', hepoch'⟩ := Option.map_eq_some_iff.1 hsecond
  refine ⟨st, st', hst, hst', hepoch, hepoch', ?_, fun m hm m' hm' hrack hs hs' => ?_⟩
  · rw [hst] at hmember
    simpa using hmember
  · have htrace : w.trace [Sample.round, Sample.round] =
        [] ++ (w, Sample.round) :: [] ++ (w.next Sample.round, Sample.round) :: [] := rfl
    exact epochs_bind_generations.1 (by simp [Sample.round]) htrace hst hst'
      (hepoch.trans hepoch'.symm) hm hm' hrack hs hs'

end PodFabric
