import BpsProtocol.CanaryRecords

/-! The canary operator sends each step at most once, and in order.
Each call of a method keeps the instance coherent with the durable records, whatever the
wallet and the chain answer and whatever the store does with each write, and at each of its
awaits the records alone block every outstanding step. -/
namespace BpsProtocol
namespace Canary

open Async

/-! ## State changes -/

section Changes

variable {R : Runtime} {s : Memory} {d d' : Storage} {l : List SendEvent}

/-- The records after a write that leaves every outstanding step covered. -/
theorem Kept.restore (h : Kept R s d l) (hj : WellKept R d'.journal)
    (hlen : s.journal.length ≤ d'.journal.length) (hw : Within d' s.journal.length)
    (hcov : ∀ k, Outstanding l k → Covered d'.journal d'.pending k) : Restorable R d' l :=
  .of_covered h.durable.once h.durable.ordered hj (hw.mono hlen) hcov

/-- A halt, stored or not, on an intent that accounts for what is not covered. -/
theorem Kept.halt (h : Kept R s d l) (reason : String) {u : Option Intent}
    (hw : ∀ i, u = some i → i.step ≤ s.journal.length)
    (hcov : ∀ k, Outstanding l k →
      Covered s.journal s.pending k ∨ ∃ i, u = some i ∧ i.step = k)
    (hd : d' = { d with halt := some ⟨reason,u⟩ } ∨ d' = d) :
    Coherent R { s with halted := true,haltReason := some reason,uncertainSend := u } d' l := by
  have hblocked : ∀ k, Outstanding l k →
      Blocked { s with halted := true,haltReason := some reason,uncertainSend := u } k := by
    intro k ho
    rcases hcov k ho with hc | ⟨i,rfl,rfl⟩
    · exact .inl hc
    · refine .inr ⟨rfl,fun v hv => ?_⟩
      cases hv
      rfl
  rcases hd with rfl | rfl
  · exact
      { durable :=
          { once := h.durable.once
            ordered := h.durable.ordered
            journal := h.durable.journal
            within := ⟨h.durable.within.pending,h.durable.within.intent,fun x v hx hv => by
              cases hx
              exact (hw v hv).trans h.length⟩
            blocked := fun s' k hs ho => by
              obtain ⟨hj,hp,-,-⟩ := construct_records hs
              rcases hcov k ho with hc | ⟨i,rfl,rfl⟩
              · rw [Blocked,hj,hp]
                exact .inl (h.covered_stored hc)
              · exact blocked_of_halt rfl rfl hs }
        journal := h.journal
        length := h.length
        places := h.places
        within := ⟨h.within.pending,h.within.intent,fun x v hx hv => by
          cases hx
          exact hw v hv⟩
        uncertainWithin := hw
        pendingStored := h.pendingStored
        haltStored := nofun
        uncertainHalted := nofun
        current_le := h.current_le
        reconciled := h.reconciled
        atEnd := nofun
        blocked := hblocked }
  · exact
      { durable := h.durable
        journal := h.journal
        length := h.length
        places := h.places
        within := h.within
        uncertainWithin := hw
        pendingStored := h.pendingStored
        haltStored := nofun
        uncertainHalted := nofun
        current_le := h.current_le
        reconciled := h.reconciled
        atEnd := nofun
        blocked := hblocked }

/-- An intent is written or cleared while nothing outstanding is uncovered. -/
theorem Coherent.intent (h : Coherent R s d l) (hs : s.halted = false) {i : Option Intent}
    (hi : ∀ x, i = some x → x.step ≤ s.journal.length) :
    Coherent R s { d with intent := i } l :=
  { h with
    durable := h.restore h.durable.journal h.length ⟨h.within.pending,hi,h.within.halt⟩
      fun _ ho => h.covered_stored (h.covered hs ho)
    within := ⟨h.within.pending,hi,h.within.halt⟩ }

/-- The fields that no record depends on. -/
theorem Coherent.setIntent (h : Coherent R s d l) (i : Option Intent) :
    Coherent R { s with intent := i } d l := { h with }

theorem Coherent.setConnected (h : Coherent R s d l) : Coherent R { s with connected := true } d l :=
  { h with }

theorem Coherent.unreconcile (h : Coherent R s d l) :
    Coherent R { s with reconciled := false } d l :=
  { h with
    reconciled := nofun
    atEnd := nofun }

/-- The wallet is invoked: the step joins the outstanding ones, and the intent blocks it. -/
theorem Coherent.invoke (h : Coherent R s d l) (hs : s.halted = false) (hp : s.pending = none)
    (hr : s.reconciled = true) {i : Intent} (hi : d.intent = some i) (hik : i.step = s.current) :
    Kept R s d (l ++ [.invoked s.current d.journal]) ∧
      ∀ k, Outstanding (l ++ [.invoked s.current d.journal]) k →
        k < s.journal.length ∨ k = s.current := by
  have hcur := h.atEnd hr hs
  have hlt : ∀ k, Outstanding l k → k < s.journal.length := fun k ho => by
    rcases h.covered hs ho with hk | ⟨p,hpk,-⟩
    · exact hk
    · rw [hp] at hpk
      cases hpk
  have hout : ∀ k, Outstanding (l ++ [.invoked s.current d.journal]) k →
      k < s.journal.length ∨ k = s.current := fun k ho => by
    rcases ho.of_concat with ⟨J,hJ⟩ | ⟨ho,-⟩
    · cases hJ
      exact .inr rfl
    · exact .inl (hlt k ho)
  refine ⟨{ h.toKept with durable := ?_ },hout⟩
  exact
    { once := h.durable.once.concat fun k J hx ho => by
        cases hx
        have := hlt _ ho
        omega
      ordered := h.durable.ordered.concat fun k J hx j hj => by
        cases hx
        have hjs : j < s.journal.length := by omega
        obtain ⟨e,he,hstep⟩ := h.places j hjs (h.reconciled hr j hjs)
        obtain ⟨hdig,hver,-⟩ := h.durable.journal j e he
        exact ⟨e,he,hstep,hdig,hver⟩
      journal := h.durable.journal
      within := h.durable.within
      blocked := fun s' k hs' ho => by
        rcases hout k ho with hk | rfl
        · obtain ⟨hj,hp',-,-⟩ := construct_records hs'
          rw [Blocked,hj,hp']
          exact .inl (.inl (hk.trans_le h.length))
        · rw [← hik]
          exact blocked_of_intent h.durable.journal (h.haltStored hs) hi hs' }

/-- The user rejected: the step is outstanding no more. -/
theorem Kept.reject {k : ℕ} (h : Kept R s d l)
    (hout : ∀ j, Outstanding l j → j < s.journal.length ∨ j = k) :
    Coherent R s d (l ++ [.rejected k]) := by
  have hlt : ∀ j, Outstanding (l ++ [.rejected k]) j → Outstanding l j ∧ j < s.journal.length := by
    intro j ho
    rcases ho.of_concat with ⟨J,hJ⟩ | ⟨ho,hne⟩
    · cases hJ
    · refine ⟨ho,(hout j ho).resolve_right fun hjk => hne ?_⟩
      rw [hjk]
  exact
    { h with
      durable :=
        { once := h.durable.once.concat nofun
          ordered := h.durable.ordered.concat nofun
          journal := h.durable.journal
          within := h.durable.within
          blocked := fun s' j hs ho => h.durable.blocked s' j hs (hlt j ho).1 }
      blocked := fun j ho => .inl (.inl (hlt j ho).2) }

/-- The hash of the sent step is recorded, and perhaps read back. -/
theorem Kept.pending (h : Kept R s d l) {p : Pending} (hp : p.step ≤ s.journal.length)
    (hout : ∀ k, Outstanding l k → k < s.journal.length ∨ k = p.step) (hnone : s.pending = none) :
    Kept R s { d with pending := some p } l ∧
      Coherent R { s with pending := some p } { d with pending := some p } l := by
  have hw : Within { d with pending := some p } s.journal.length :=
    ⟨fun q hq => by cases hq; exact hp,h.within.intent,h.within.halt⟩
  have hcov : ∀ J : List (Option Entry), s.journal.length ≤ J.length → ∀ k, Outstanding l k →
      Covered J (some p) k := fun J hJ k ho => by
    rcases hout k ho with hk | rfl
    · exact .inl (hk.trans_le hJ)
    · exact .inr ⟨p,rfl,rfl⟩
  have hdur : Restorable R { d with pending := some p } l :=
    h.restore h.durable.journal h.length hw (hcov _ h.length)
  refine ⟨{ h with
    durable := hdur
    within := hw
    pendingStored := fun q hq => by rw [hnone] at hq; cases hq },?_⟩
  exact
    { h with
      durable := hdur
      within := hw
      pendingStored := fun q hq => hq
      blocked := fun k ho => .inl (hcov _ le_rfl k ho) }

/-- A stale pending record is dropped, whatever becomes of the write. -/
theorem Coherent.dropPending (h : Coherent R s d l) (hs : s.halted = false)
    (hstale : ∀ p, s.pending = some p → p.step < s.journal.length)
    (hd : d' = { d with pending := none } ∨ d' = d) :
    Coherent R { s with pending := none } d' l := by
  have hlt : ∀ k, Outstanding l k → k < s.journal.length := fun k ho => by
    rcases h.covered hs ho with hk | ⟨p,hp,rfl⟩
    · exact hk
    · exact hstale p hp
  rcases hd with rfl | rfl
  · have hw : Within { d with pending := none } s.journal.length :=
      ⟨nofun,h.within.intent,h.within.halt⟩
    exact
      { h with
        durable := h.restore h.durable.journal h.length hw
          fun k ho => .inl ((hlt k ho).trans_le h.length)
        within := hw
        pendingStored := nofun
        blocked := fun k ho => .inl (.inl (hlt k ho)) }
  · exact
      { h with
        pendingStored := nofun
        blocked := fun k ho => .inl (.inl (hlt k ho)) }

/-- The journal that `verifyAfterHash` writes covers every outstanding step. -/
theorem Coherent.lt_concat (h : Coherent R s d l) (hs : s.halted = false) (x : Option Entry)
    {k : ℕ} (ho : Outstanding l k) : k < (s.journal ++ [x]).length := by
  rw [List.length_append,List.length_singleton]
  rcases h.covered hs ho with hk | ⟨p,hp,rfl⟩
  · omega
  · exact Nat.lt_succ_of_le (h.within.pending p (h.pendingStored p hp))

/-- The journal write took effect but was not read back. -/
theorem Coherent.journalStored (h : Coherent R s d l) (hs : s.halted = false) (txHash : Text) :
    Coherent R s { d with journal := s.journal ++ [some (R.entryOf s.current txHash)] } l :=
  { h with
    durable := h.restore (h.journal.concat h.current_le txHash) (by simp)
      ⟨h.within.pending,h.within.intent,h.within.halt⟩ fun _ ho => .inl (h.lt_concat hs _ ho)
    length := by simp
    places := fun j _ hj => hj.concat _
    within := ⟨h.within.pending,h.within.intent,h.within.halt⟩ }

/-- The step is journaled, the superseded records are cleared or not, and the instance
moves on. -/
theorem Coherent.advanced (h : Coherent R s d l) (hs : s.halted = false) {txHash : Text}
    (hj : d'.journal = s.journal ++ [some (R.entryOf s.current txHash)]) (hh : d'.halt = d.halt)
    (hp : d'.pending = none ∨ d'.pending = d.pending)
    (hi : d'.intent = none ∨ d'.intent = d.intent) :
    Coherent R
      { s with
        journal := s.journal ++ [some (R.entryOf s.current txHash)]
        pending := none
        intent := none
        current := s.current+1 } d' l := by
  have hlen : (s.journal ++ [some (R.entryOf s.current txHash)]).length = s.journal.length+1 := by
    simp
  have hkept := h.journal.concat h.current_le txHash
  have hw : Within d' s.journal.length :=
    { pending := fun p hp' => by
        rcases hp with hp | hp
        · rw [hp] at hp'
          cases hp'
        · exact h.within.pending p (hp ▸ hp')
      intent := fun i hi' => by
        rcases hi with hi | hi
        · rw [hi] at hi'
          cases hi'
        · exact h.within.intent i (hi ▸ hi')
      halt := fun x u hx => h.within.halt x u (hh ▸ hx) }
  exact
    { durable := h.restore (hj ▸ hkept) (by rw [hj,hlen]; exact Nat.le_succ _) hw
        fun k ho => .inl (hj ▸ h.lt_concat hs _ ho)
      journal := hkept
      length := by rw [hj]
      places := fun j _ hjh => hj ▸ hjh
      within := hw.mono (by rw [hlen]; exact Nat.le_succ _)
      uncertainWithin := fun u hu => by
        rw [h.uncertainHalted hs] at hu
        cases hu
      pendingStored := nofun
      haltStored := fun _ => hh.trans (h.haltStored hs)
      uncertainHalted := fun _ => h.uncertainHalted hs
      current_le := by rw [hlen]; exact Nat.succ_le_succ h.current_le
      reconciled := fun hr j hjlt => by
        rw [hlen] at hjlt
        rcases Nat.lt_succ_iff_lt_or_eq.mp hjlt with hlt | rfl
        · exact (h.reconciled hr j hlt).concat _
        · rw [h.atEnd hr hs]
          exact R.holds_concat_self s.journal txHash
      atEnd := fun hr _ => by rw [hlen,h.atEnd hr hs]
      blocked := fun k ho => .inl (.inl (h.lt_concat hs _ ho)) }

/-- The journal that a resolution writes. -/
def Runtime.resolved (R : Runtime) (s : Memory) (step : ℕ) (txHash : Text) : List (Option Entry) :=
  Runtime.setEntry s.journal step (R.entryOf step txHash)

/-- The resolved journal covers every step that the instance blocks. -/
theorem Coherent.covered_resolved (h : Coherent R s d l) {u : Intent}
    (hu : s.uncertainSend = some u) (txHash : Text) {k : ℕ} (ho : Outstanding l k) :
    Covered (R.resolved s u.step txHash) s.pending k := by
  obtain ⟨hle,hlt⟩ :=
    Runtime.setEntry_length (h.uncertainWithin u hu) (R.entryOf u.step txHash)
  rcases h.blocked k ho with (hk | hp) | ⟨-,hblocked⟩
  · exact .inl (hk.trans_le hle)
  · exact .inr hp
  · rw [← hblocked u hu]
    exact .inl hlt

/-- The records after a resolution: the journal is written, the rest is cleared or not. -/
structure ResolvedTo (J : List (Option Entry)) (d d' : Storage) : Prop where
  journal : d'.journal = J
  pending : d'.pending = d.pending
  intent : d'.intent = none ∨ d'.intent = d.intent
  halt : d'.halt = none ∨ d'.halt = d.halt

theorem ResolvedTo.within {J : List (Option Entry)} {n : ℕ} (hd : ResolvedTo J d d')
    (h : Within d n) : Within d' n where
  pending p hp := h.pending p (hd.pending ▸ hp)
  intent i hi := by
    rcases hd.intent with hn | hd
    · rw [hn] at hi
      cases hi
    · exact h.intent i (hd ▸ hi)
  halt x u hx := by
    rcases hd.halt with hn | hd
    · rw [hn] at hx
      cases hx
    · exact h.halt x u (hd ▸ hx)

theorem Coherent.restore_resolved (h : Coherent R s d l) {u : Intent}
    (hu : s.uncertainSend = some u) {txHash : Text}
    (hd : ResolvedTo (R.resolved s u.step txHash) d d') : Restorable R d' l := by
  have hs := h.uncertainWithin u hu
  refine h.restore (hd.journal ▸ h.journal.setEntry hs txHash)
    (hd.journal ▸ (Runtime.setEntry_length hs _).1) (hd.within h.within) fun k ho => ?_
  rw [hd.journal,hd.pending]
  rcases h.covered_resolved hu txHash ho with hk | ⟨p,hp,hk⟩
  · exact .inl hk
  · exact .inr ⟨p,h.pendingStored p hp,hk⟩

/-- The instance keeps its old journal: the write was not read back. -/
theorem Coherent.resolvedStored (h : Coherent R s d l) {u : Intent}
    (hu : s.uncertainSend = some u) {txHash : Text}
    (hd : ResolvedTo (R.resolved s u.step txHash) d d') (hh : d'.halt = d.halt) :
    Coherent R s d' l :=
  { h with
    durable := h.restore_resolved hu hd
    length := hd.journal ▸ (Runtime.setEntry_length (h.uncertainWithin u hu) _).1
    places := fun _ _ hj => hd.journal ▸ hj.setEntry (h.uncertainWithin u hu) txHash
    within := hd.within h.within
    pendingStored := fun p hp => hd.pending.trans (h.pendingStored p hp)
    haltStored := fun hs => hh.trans (h.haltStored hs) }

/-- The instance takes the new journal and stays halted. -/
theorem Coherent.resolvedHalted (h : Coherent R s d l) {u : Intent}
    (hu : s.uncertainSend = some u) {txHash : Text}
    (hd : ResolvedTo (R.resolved s u.step txHash) d d') :
    Coherent R { s with journal := R.resolved s u.step txHash } d' l := by
  have hs := h.uncertainWithin u hu
  obtain ⟨hle,hlt⟩ := Runtime.setEntry_length hs (R.entryOf u.step txHash)
  have hhalted : s.halted ≠ false := fun hh => by
    rw [h.uncertainHalted hh] at hu
    cases hu
  exact
    { durable := h.restore_resolved hu hd
      journal := h.journal.setEntry hs txHash
      length := by rw [hd.journal]
      places := fun j _ hj => hd.journal ▸ hj
      within := (hd.within h.within).mono hle
      uncertainWithin := fun v hv => (h.uncertainWithin v hv).trans hle
      pendingStored := fun p hp => hd.pending.trans (h.pendingStored p hp)
      haltStored := fun hh => absurd hh hhalted
      uncertainHalted := h.uncertainHalted
      current_le := h.current_le.trans hle
      reconciled := fun hr j hj => by
        by_cases hjs : j = u.step
        · exact ⟨_,by rw [Runtime.resolved,Runtime.setEntry_getElem? hs,if_pos hjs],hjs.symm⟩
        · refine (h.reconciled hr j ?_).setEntry hs txHash
          have hsome : (R.resolved s u.step txHash)[j]? ≠ none := fun hnone =>
            absurd hj (Nat.not_lt.mpr (List.getElem?_eq_none_iff.mp hnone))
          rw [Runtime.resolved,Runtime.setEntry_getElem? hs,if_neg hjs] at hsome
          by_contra hge
          exact hsome (List.getElem?_eq_none (Nat.not_lt.mp hge))
      atEnd := fun _ hh => absurd hh hhalted
      blocked := fun k ho => .inl (h.covered_resolved hu txHash ho) }

/-- Both records are seen to be cleared, and the halt ends. -/
theorem Coherent.resolvedCleared (h : Coherent R s d l) {u : Intent}
    (hu : s.uncertainSend = some u) {txHash : Text}
    (hd : ResolvedTo (R.resolved s u.step txHash) d d') (hh : d'.halt = none) :
    Coherent R
      { s with
        journal := R.resolved s u.step txHash
        uncertainSend := none
        intent := none
        halted := false
        haltReason := none
        current := (R.resolved s u.step txHash).length } d' l :=
  { h.resolvedHalted hu hd with
    uncertainWithin := nofun
    haltStored := fun _ => hh
    uncertainHalted := fun _ => rfl
    current_le := le_rfl
    atEnd := fun _ _ => rfl
    blocked := fun _ ho => .inl (h.covered_resolved hu txHash ho) }

/-- The journal is verified, and the instance stands at its end. -/
theorem Coherent.reconciledAt (h : Coherent R s d l)
    (hj : ∀ j < s.journal.length, Holds s.journal j) :
    Coherent R { s with current := s.journal.length,reconciled := true } d l :=
  { h with
    current_le := le_rfl
    reconciled := fun _ => hj
    atEnd := fun _ _ => rfl }

end Changes

/-! ## Programs -/

section Programs

variable {R : Runtime} {α β : Type}

/-- The program awaits only where the records can be restored, and ends coherent, in a
memory where `Q` holds. -/
abbrev Keeps (R : Runtime) (Q : Memory → Prop) (p : Program α) (s : Memory) (d : Storage)
    (l : List SendEvent) : Prop :=
  Safe sends (Restorable R) (fun _ _ => True) (fun _ s d l => Coherent R s d l ∧ Q s) p s d l

variable {Q : Memory → Prop} {s : Memory} {d : Storage} {l : List SendEvent}

theorem Keeps.looks {p : Program α} (hp : Looks p) (h : Coherent R s d l) (hQ : Q s) :
    Keeps R Q p s d l :=
  (hp.safe sends_issued sends_answered h.durable).mono fun _ _ _ _ ⟨hs,hd,hl⟩ => by
    rw [hs,hd,hl]
    exact ⟨h,hQ⟩

/-- A part that only looks, before the rest. -/
theorem Keeps.looks_bind {p : Program α} {f : α → Program β} (hp : Looks p) (h : Coherent R s d l)
    (hQ : Q s) (hf : ∀ a, Keeps R Q (f a) s d l) : Keeps R Q (p >>= f) s d l := by
  refine Safe.bind ((hp.safe sends_issued sends_answered h.durable).mono ?_)
  rintro r s' d' l' ⟨rfl,rfl,rfl⟩
  cases r with
  | ok a => exact hf a
  | error e => exact ⟨h,hQ⟩

/-- The chain check does not fail, so it may stand where only the records agree. -/
theorem Keeps.boundary_bind {t : Step} {f : Bool → Program β} (h : Restorable R d l)
    (hf : ∀ b, Keeps R Q (f b) s d l) : Keeps R Q (Runtime.boundaryHolds t >>= f) s d l := by
  have hend : Safe sends (Restorable R) (fun _ _ => True)
      (fun r s' d' l' => (∃ b, r = .ok b) ∧ s' = s ∧ d' = d ∧ l' = l)
      (Runtime.boundaryHolds t) s d l := by
    refine Safe.and ?_ ((Runtime.looks_boundaryHolds t).safe sends_issued sends_answered h)
    unfold Runtime.boundaryHolds
    split
    · refine Safe.attempt_bind (I := Rpc) (q := .chainId) ?_ fun r _ => ?_
      · rwa [sends_issued .chainId d id,List.append_nil]
      · cases r with
        | ok c => exact ⟨_,rfl⟩
        | error e => exact ⟨_,rfl⟩
    · exact ⟨_,rfl⟩
  refine Safe.bind (hend.mono ?_)
  rintro r s' d' l' ⟨⟨b,rfl⟩,rfl,rfl,rfl⟩
  exact hf b

theorem Keeps.persistHalt_bind {reason : String} {u : Option Intent} {f : Unit → Program β}
    (hstored : Keeps R Q (f ())
      { s with halted := true,haltReason := some reason,uncertainSend := u }
      { d with halt := some ⟨reason,u⟩ } l)
    (hlost : Keeps R Q (f ())
      { s with halted := true,haltReason := some reason,uncertainSend := u } d l) :
    Keeps R Q (persistHalt reason u >>= f) s d l := by
  intro w
  cases w with
  | confirmed => exact hstored
  | unconfirmed => exact hstored
  | lost => exact hlost

theorem Keeps.uncertain (h : Kept R s d l) (reason : String) {i : Intent} (txHash : Option Text)
    (hi : i.step ≤ s.journal.length)
    (hout : ∀ k, Outstanding l k → k < s.journal.length ∨ k = i.step) :
    Keeps R (fun _ => True) (Runtime.uncertain reason i txHash) s d l := by
  have hw : ∀ x, some i = some x → x.step ≤ s.journal.length := fun x hx => by
    cases hx
    exact hi
  have hcov : ∀ k, Outstanding l k → Covered s.journal s.pending k ∨
      ∃ x, some i = some x ∧ x.step = k := fun k ho => by
    rcases hout k ho with hk | rfl
    · exact .inl (.inl hk)
    · exact .inr ⟨i,rfl,rfl⟩
  exact .persistHalt_bind ⟨h.halt reason hw hcov (.inl rfl),trivial⟩
    ⟨h.halt reason hw hcov (.inr rfl),trivial⟩

/-- `_halt` of an instance that is not halted. -/
theorem Keeps.halt (h : Coherent R s d l) (hs : s.halted = false) (reason : String)
    (hQ : Q { s with
      halted := true,haltReason := some reason,uncertainSend := s.uncertainSend }) :
    Keeps R Q (Canary.halt reason) s d l := by
  have hcov : ∀ k, Outstanding l k → Covered s.journal s.pending k ∨
      ∃ i, s.uncertainSend = some i ∧ i.step = k := fun k ho => .inl (h.covered hs ho)
  exact Safe.get_bind (Keeps.persistHalt_bind
    ⟨h.toKept.halt reason h.uncertainWithin hcov (.inl rfl),hQ⟩
    ⟨h.toKept.halt reason h.uncertainWithin hcov (.inr rfl),hQ⟩)

/-! ## Sending -/

theorem Keeps.clearRejected {i : Intent} (h : Coherent R s d l) (hs : s.halted = false)
    (hi : i.step ≤ s.journal.length) (hp : s.pending = none) :
    Keeps R (fun _ => True) (Runtime.clearRejected i) s d l := by
  have hclear : Coherent R s { d with intent := none } l := h.intent hs nofun
  have hout : ∀ k, Outstanding l k → k < s.journal.length ∨ k = i.step := fun k ho => by
    rcases h.covered hs ho with hk | ⟨p,hpk,-⟩
    · exact .inl hk
    · rw [hp] at hpk
      cases hpk
  refine Safe.write_bind ?_ ?_ ?_
  · exact ⟨hclear.setIntent none,trivial⟩
  · exact Keeps.uncertain hclear.toKept _ none hi hout
  · exact Keeps.uncertain h.toKept _ none hi hout

theorem Keeps.recordPending {i : Intent} {txHash : Text} (h : Kept R s d l)
    (hcur : s.current ≤ s.journal.length) (hi : i.step = s.current) (hp : s.pending = none)
    (hout : ∀ k, Outstanding l k → k < s.journal.length ∨ k = s.current) :
    Keeps R (fun _ => True) (R.recordPending i txHash) s d l := by
  have hpending := @Kept.pending R s d l h ⟨R.execDigest,s.current,txHash⟩ hcur hout hp
  rw [← hi] at hcur hout
  refine Safe.get_bind (Safe.write_bind ?_ ?_ ?_)
  · exact ⟨hpending.2,trivial⟩
  · exact Keeps.uncertain hpending.1 _ _ hcur hout
  · exact Keeps.uncertain h _ _ hcur hout

/-- The wallet call: each of its answers leaves the sent step blocked or rejected. -/
theorem Keeps.invokeWallet {t : Step} {i : Intent} (h : Coherent R s d l) (hs : s.halted = false)
    (hp : s.pending = none) (hr : s.reconciled = true) (hi : d.intent = some i)
    (hik : i.step = s.current) :
    Keeps R (fun _ => True) (R.invokeWallet s.current t i) s d l := by
  obtain ⟨hkept,hout⟩ := h.invoke hs hp hr hi hik
  have hcur : i.step ≤ s.journal.length := hik ▸ h.current_le
  refine Safe.attempt_bind (I := Rpc) (q := .sendTransaction s.current (Runtime.buildSendTx t))
    hkept.durable fun r _ => ?_
  cases r with
  | error e =>
    by_cases hrej : e.isUserRejected = true
    · simp only [sends,if_pos hrej]
      exact Keeps.clearRejected (hkept.reject hout) hs hcur hp
    · simp only [sends,if_neg hrej,List.append_nil]
      exact Keeps.uncertain hkept _ none hcur (hik ▸ hout)
  | ok txHash =>
    simp only [sends,List.append_nil]
    refine Keeps.boundary_bind hkept.durable fun holds => ?_
    cases holds with
    | true => exact Keeps.recordPending hkept h.current_le hik hp hout
    | false => exact Keeps.uncertain hkept _ _ hcur (hik ▸ hout)

theorem Keeps.sendStep (h : Coherent R s d l) (hs : s.halted = false) (hp : s.pending = none)
    (hr : s.reconciled = true) : Keeps R (fun _ => True) R.sendStep s d l := by
  refine Safe.get_bind ?_
  cases ht : R.steps[s.current]? with
  | none => exact ⟨h,trivial⟩
  | some t =>
    refine Keeps.looks_bind (Runtime.looks_boundaryHolds t) h trivial fun holds => ?_
    cases holds with
    | false => exact ⟨h,trivial⟩
    | true =>
      have hintent : Coherent R s { d with intent := some (R.intentOf s.current t) } l :=
        h.intent hs fun x hx => by
          cases hx
          exact h.current_le
      refine Safe.get_bind (Safe.write_bind ?_ ⟨hintent,trivial⟩ ⟨h,trivial⟩)
      have hmem := hintent.setIntent (some (R.intentOf s.current t))
      refine Safe.modify_bind (Keeps.looks_bind (Runtime.looks_boundaryHolds t) hmem trivial
        fun holds => ?_)
      cases holds with
      | true => exact Keeps.invokeWallet hmem hs hp hr rfl rfl
      | false =>
        have hclear := (hmem.intent (i := none) hs nofun).setIntent none
        exact Safe.write_bind ⟨hclear,trivial⟩ ⟨hclear,trivial⟩ ⟨hmem.setIntent none,trivial⟩

/-- Passed preconditions change nothing; failed ones may halt. -/
theorem preconditions_safe (h : Coherent R s d l) (now : ℕ) :
    Safe sends (Restorable R) (fun _ _ => True)
      (fun r s' d' l' => Coherent R s' d' l' ∧
        ∀ ready, r = .ok (.ok ready) → s' = s ∧ d' = d ∧ l' = l) (R.preconditions now) s d l := by
  refine Safe.get_bind ?_
  split_ifs with hs hu hc hr hp
  · exact ⟨h,nofun⟩
  · exact ⟨h,nofun⟩
  · exact ⟨h,nofun⟩
  · exact ⟨h,nofun⟩
  · exact ⟨h,nofun⟩
  · cases ht : R.steps[s.current]? with
    | none => exact ⟨h,nofun⟩
    | some t =>
      have hhalted : s.halted = false := Bool.eq_false_iff.mpr hs
      refine Safe.bind (((R.looks_gates s.current t now).safe sends_issued sends_answered
        h.durable).mono ?_)
      rintro r s' d' l' ⟨rfl,rfl,rfl⟩
      cases r with
      | error e => exact ⟨h,nofun⟩
      | ok gs =>
        dsimp only
        split_ifs with hg
        · exact ⟨h,fun _ _ => ⟨rfl,rfl,rfl⟩⟩
        · refine Safe.bind ((Keeps.halt (Q := fun _ => True) h hhalted _ trivial).mono ?_)
          rintro r s'' d'' l'' ⟨hco,-⟩
          cases r with
          | ok o => exact ⟨hco,nofun⟩
          | error e => exact ⟨hco,nofun⟩

theorem Keeps.sendCurrent (h : Coherent R s d l) (now : ℕ) :
    Keeps R (fun _ => True) (R.sendCurrent now) s d l := by
  refine Safe.get_bind ?_
  split_ifs with hs hr hp
  · exact ⟨h,trivial⟩
  · exact ⟨h,trivial⟩
  · exact ⟨h,trivial⟩
  · simp only [Bool.or_eq_true,not_or,Bool.not_eq_true] at hs
    simp only [Bool.and_eq_true,Bool.not_eq_true',Bool.not_eq_false] at hr
    have hnone : s.pending = none := by simpa using hp
    refine Safe.bind ((preconditions_safe h now).mono ?_)
    rintro r s' d' l' ⟨hco,hsame⟩
    cases r with
    | error e => exact ⟨hco,trivial⟩
    | ok pre =>
      cases pre with
      | error o => exact ⟨hco,trivial⟩
      | ok ready =>
        obtain ⟨rfl,rfl,rfl⟩ := hsame ready rfl
        exact Keeps.sendStep hco hs.1 hnone hr.2

/-! ## Verifying and reconciling -/

theorem Keeps.journalStep (h : Coherent R s d l) (hs : s.halted = false) (txHash : Text)
    (found : Finding) :
    Keeps R (fun s' => s'.reconciled = s.reconciled) (R.journalStep s.current txHash found)
      s d l := by
  have hdone : ∀ d' : Storage, d'.journal = s.journal ++ [some (R.entryOf s.current txHash)] →
      d'.halt = d.halt → (d'.pending = none ∨ d'.pending = d.pending) →
      (d'.intent = none ∨ d'.intent = d.intent) → _ := fun d' => @Coherent.advanced R s d d' l h hs txHash
  refine Safe.get_bind (Safe.write_bind ?_ ⟨h.journalStored hs txHash,rfl⟩ ⟨h,rfl⟩)
  refine Safe.modify_bind (Safe.write_bind ?_ ?_ ?_)
  all_goals refine Safe.modify_bind (Safe.write_bind ?_ ?_ ?_)
  · exact ⟨hdone _ rfl rfl (.inl rfl) (.inl rfl),rfl⟩
  · exact ⟨hdone _ rfl rfl (.inl rfl) (.inl rfl),rfl⟩
  · exact ⟨hdone _ rfl rfl (.inl rfl) (.inr rfl),rfl⟩
  · exact ⟨hdone _ rfl rfl (.inl rfl) (.inl rfl),rfl⟩
  · exact ⟨hdone _ rfl rfl (.inl rfl) (.inl rfl),rfl⟩
  · exact ⟨hdone _ rfl rfl (.inl rfl) (.inr rfl),rfl⟩
  · exact ⟨hdone _ rfl rfl (.inr rfl) (.inl rfl),rfl⟩
  · exact ⟨hdone _ rfl rfl (.inr rfl) (.inl rfl),rfl⟩
  · exact ⟨hdone _ rfl rfl (.inr rfl) (.inr rfl),rfl⟩

theorem Keeps.verifyPending (h : Coherent R s d l) (hs : s.halted = false) (txHash : Text) :
    Keeps R (fun s' => s'.reconciled = s.reconciled) (R.verifyPending s.current txHash)
      s d l := by
  refine Keeps.looks_bind (R.looks_verifyStep _ _ _ _) h rfl fun v => ?_
  cases v with
  | error reason => exact Keeps.halt h hs _ rfl
  | ok v =>
    refine Keeps.looks_bind (R.looks_cumulativeCheckpoint _ _) h rfl fun chk => ?_
    cases chk with
    | error reason => exact Keeps.halt h hs _ rfl
    | ok _ => exact Keeps.journalStep h hs txHash v.1

theorem Keeps.verifyAfterHash (h : Coherent R s d l) (txHash : Text) :
    Keeps R (fun s' => s'.reconciled = s.reconciled) (R.verifyAfterHash txHash) s d l := by
  refine Safe.get_bind ?_
  split_ifs with hs
  · exact ⟨h,rfl⟩
  · have hhalted : s.halted = false := Bool.eq_false_iff.mpr hs
    cases hp : s.pending with
    | none => exact Keeps.halt h hhalted _ rfl
    | some p =>
      dsimp only
      split_ifs
      · exact Keeps.verifyPending h hhalted txHash
      · exact Keeps.halt h hhalted _ rfl

/-- The journal loop ends well only where every entry from `k` on stands at its place. -/
theorem verifyJournal_safe (h : Coherent R s d l) (k left : ℕ) :
    Safe sends (Restorable R) (fun _ _ => True)
      (fun r s' d' l' => (s' = s ∧ d' = d ∧ l' = l) ∧
        (r = .ok (.ok ()) → ∀ j, k ≤ j → j < s.journal.length → Holds s.journal j))
      (R.verifyJournal k left) s d l := by
  induction left generalizing k with
  | zero =>
    rw [Runtime.verifyJournal]
    refine Safe.get_bind ?_
    split
    · rename_i hk
      refine ⟨⟨rfl,rfl,rfl⟩,fun _ j hkj hj => ?_⟩
      have hge := List.getElem?_eq_none_iff.mp hk
      omega
    · exact ⟨⟨rfl,rfl,rfl⟩,nofun⟩
    · split_ifs
      · exact ⟨⟨rfl,rfl,rfl⟩,nofun⟩
      · exact ⟨⟨rfl,rfl,rfl⟩,nofun⟩
  | succ left ih =>
    rw [Runtime.verifyJournal]
    refine Safe.get_bind ?_
    split
    · rename_i hk
      refine ⟨⟨rfl,rfl,rfl⟩,fun _ j hkj hj => ?_⟩
      have hge := List.getElem?_eq_none_iff.mp hk
      omega
    · exact ⟨⟨rfl,rfl,rfl⟩,nofun⟩
    · rename_i e he
      split_ifs with hmatch
      · refine Safe.bind (((R.looks_verifyStep k e.txHash _ _).safe sends_issued sends_answered
          h.durable).mono ?_)
        rintro r s' d' l' ⟨rfl,rfl,rfl⟩
        cases r with
        | error e => exact ⟨⟨rfl,rfl,rfl⟩,nofun⟩
        | ok v =>
          cases v with
          | error reason => exact ⟨⟨rfl,rfl,rfl⟩,nofun⟩
          | ok v =>
            refine (ih (k+1)).mono fun r s' d' l' ⟨hsame,hrest⟩ => ⟨hsame,fun hr j hkj hj => ?_⟩
            rcases Nat.eq_or_lt_of_le hkj with rfl | hlt
            · exact ⟨e,he,hmatch.2⟩
            · exact hrest hr j hlt hj
      · exact ⟨⟨rfl,rfl,rfl⟩,nofun⟩

theorem Keeps.resumePending (h : Coherent R s d l) (hr : s.reconciled = true) :
    Keeps R (fun _ => True) R.resumePending s d l := by
  refine Safe.get_bind ?_
  cases hp : s.pending with
  | none => exact ⟨h,trivial⟩
  | some p =>
    refine Keeps.looks_bind (.req id) h trivial fun otx => ?_
    cases otx with
    | none => exact ⟨h.unreconcile,trivial⟩
    | some otx =>
      refine Safe.get_bind ?_
      rw [hp]
      refine Safe.bind ((Keeps.verifyAfterHash h p.txHash).mono ?_)
      rintro r s' d' l' ⟨hco,hrec⟩
      cases r with
      | error e => exact ⟨hco,trivial⟩
      | ok v =>
        dsimp only
        split_ifs
        · have hsame : { s' with reconciled := true } = s' := by
            rw [← hr,← hrec]
          refine Safe.modify_bind (Safe.get_bind ?_)
          exact ⟨hsame ▸ hco,trivial⟩
        · exact ⟨hco,trivial⟩

theorem Keeps.finishReconcile (h : Coherent R s d l) (hs : s.halted = false)
    (hj : ∀ j < s.journal.length, Holds s.journal j) :
    Keeps R (fun _ => True) R.finishReconcile s d l := by
  have hat := h.reconciledAt hj
  refine Safe.modify_bind (Safe.bind (Safe.get_bind ?_))
  split_ifs with hstale
  · have hlt : ∀ p, s.pending = some p → p.step < s.journal.length := fun p hp => by
      simpa [hp] using hstale
    have hdrop := fun d' => @Coherent.dropPending R _ d d' l hat hs hlt
    refine Safe.write_bind ?_ ?_ ?_
    · exact Keeps.resumePending (hdrop _ (.inl rfl)) rfl
    · exact Keeps.resumePending (hdrop _ (.inl rfl)) rfl
    · exact Keeps.resumePending (hdrop _ (.inr rfl)) rfl
  · exact Keeps.resumePending hat rfl

theorem Keeps.reconcile (h : Coherent R s d l) :
    Keeps R (fun _ => True) R.reconcile s d l := by
  refine Safe.get_bind ?_
  split_ifs with hc hu hun
  · exact ⟨h,trivial⟩
  · exact ⟨h,trivial⟩
  · exact ⟨h,trivial⟩
  · have hs : s.halted = false := by
      by_contra hh
      rw [Bool.not_eq_false] at hh
      simp only [hh,Bool.true_and,Option.isNone_iff_eq_none] at hu
      exact hun (Option.isSome_iff_ne_none.mpr hu)
    refine Safe.bind ((verifyJournal_safe h 0 R.steps.length).mono ?_)
    rintro r s' d' l' ⟨⟨rfl,rfl,rfl⟩,hj⟩
    cases r with
    | error e => exact ⟨h,trivial⟩
    | ok v =>
      cases v with
      | error reason => exact Keeps.halt h hs _ trivial
      | ok u =>
        refine Keeps.looks_bind R.looks_restartCheckpoint h trivial fun chk => ?_
        cases chk with
        | error reason => exact Keeps.halt h hs _ trivial
        | ok _ => exact Keeps.finishReconcile h hs fun j hjlt => hj rfl j (Nat.zero_le j) hjlt

theorem Keeps.journalResolved {u : Intent} (h : Coherent R s d l) (hu : s.uncertainSend = some u)
    (txHash : Text) : Keeps R (fun _ => True) (R.journalResolved u.step txHash) s d l := by
  have hhalted : ∀ d', ResolvedTo (R.resolved s u.step txHash) d d' → _ :=
    fun d' => @Coherent.resolvedHalted R s d d' l h u hu txHash
  have hcleared : ∀ d', ResolvedTo (R.resolved s u.step txHash) d d' → d'.halt = none → _ :=
    fun d' => @Coherent.resolvedCleared R s d d' l h u hu txHash
  refine Safe.get_bind (Safe.write_bind ?_
    ⟨h.resolvedStored hu ⟨rfl,rfl,.inr rfl,.inr rfl⟩ rfl,trivial⟩ ⟨h,trivial⟩)
  refine Safe.modify_bind (Safe.write_bind ?_ ?_ ?_)
  · refine Safe.write_bind ?_ ?_ ?_
    · exact ⟨hcleared _ ⟨rfl,rfl,.inl rfl,.inl rfl⟩ rfl,trivial⟩
    · exact ⟨hhalted _ ⟨rfl,rfl,.inl rfl,.inl rfl⟩,trivial⟩
    · exact ⟨hhalted _ ⟨rfl,rfl,.inl rfl,.inr rfl⟩,trivial⟩
  · refine Safe.write_bind ?_ ?_ ?_
    · exact ⟨hhalted _ ⟨rfl,rfl,.inl rfl,.inl rfl⟩,trivial⟩
    · exact ⟨hhalted _ ⟨rfl,rfl,.inl rfl,.inl rfl⟩,trivial⟩
    · exact ⟨hhalted _ ⟨rfl,rfl,.inl rfl,.inr rfl⟩,trivial⟩
  · refine Safe.write_bind ?_ ?_ ?_
    · exact ⟨hhalted _ ⟨rfl,rfl,.inr rfl,.inl rfl⟩,trivial⟩
    · exact ⟨hhalted _ ⟨rfl,rfl,.inr rfl,.inl rfl⟩,trivial⟩
    · exact ⟨hhalted _ ⟨rfl,rfl,.inr rfl,.inr rfl⟩,trivial⟩

theorem Keeps.resolveUncertainSend (h : Coherent R s d l) (txHash : Text) :
    Keeps R (fun _ => True) (R.resolveUncertainSend txHash) s d l := by
  refine Safe.get_bind ?_
  cases hu : s.uncertainSend with
  | none => exact ⟨h,trivial⟩
  | some u =>
    refine Keeps.looks_bind (R.looks_verifyStep _ _ _ _) h trivial fun v => ?_
    cases v with
    | error reason => exact ⟨h,trivial⟩
    | ok v => exact Keeps.journalResolved h hu txHash

theorem Keeps.markConnected (h : Coherent R s d l) :
    Keeps R (fun _ => True) Runtime.markConnected s d l := by
  refine Safe.get_bind ?_
  split_ifs
  · exact ⟨h,trivial⟩
  · refine Keeps.looks_bind (.req id) h trivial fun chain => ?_
    split_ifs
    · exact ⟨h,trivial⟩
    · refine Keeps.looks_bind (.req id) h trivial fun accts => ?_
      split_ifs
      · exact ⟨h,trivial⟩
      · exact ⟨h.setConnected,trivial⟩

theorem Keeps.preconditions (h : Coherent R s d l) (now : ℕ) :
    Keeps R (fun _ => True) (R.method (.preconditions now)) s d l := by
  refine Safe.bind ((preconditions_safe h now).mono ?_)
  rintro r s' d' l' ⟨hco,-⟩
  cases r with
  | error e => exact ⟨hco,trivial⟩
  | ok pre => cases pre <;> exact ⟨hco,trivial⟩

end Programs

/-! ## Runs -/

/-- What every method keeps. -/
theorem operator_contract (R : Runtime) :
    Contract sends R.app (fun _ _ => True) (Restorable R) (Coherent R) (fun _ _ => True) where
  load _ _ _ hr hs := hr.load hs
  rest _ _ _ h := h.durable
  call m s d l h := by
    cases m with
    | markConnected => exact Keeps.markConnected h
    | preconditions now => exact Keeps.preconditions h now
    | sendCurrent now => exact Keeps.sendCurrent h now
    | verifyAfterHash txHash =>
      exact (Keeps.verifyAfterHash h txHash).mono fun _ _ _ _ ⟨hco,_⟩ => ⟨hco,trivial⟩
    | reconcile => exact Keeps.reconcile h
    | resolveUncertainSend txHash => exact Keeps.resolveUncertainSend h txHash

abbrev OperatorPage := Page Rpc Memory Storage Failure Outcome Method SendEvent

/-- A page that some run of loads, calls, crashes and answers leads to, from empty storage. -/
def OperatorReachable (R : Runtime) : OperatorPage → Prop :=
  Machine.Reachable (τ := Page.Action Rpc Failure Method fun _ _ => True)
    (· = Page.blank Storage.empty) (Page.exec sends R.app)

/-- At most one send of each step that the user did not reject, and each send after the
durable journal entries of all earlier steps. -/
theorem sends_at_most_once (R : Runtime) {p : OperatorPage} (h : OperatorReachable R p) :
    AtMostOnce p.log ∧ InOrder R p.log := by
  have hv := Page.Valid.reachable (operator_contract R) (Restorable.empty R) h
  exact ⟨hv.rest.once,hv.rest.ordered⟩

/-! ## A packet of nineteen steps -/

/-- A stand-in for `keccak256` on short inputs. -/
def sampleHash : Hash := fun bs => Fin.ofNat (2^256) (natOf bs + 1)

def sampleSlots : List Slot :=
  [.canaryToken,.lockingVault,.claimManager,.rialtoAdapter,.coordinator,.stockVault,
    .uniswapAdapter,.tradeRouter]

def sampleCode : Bytes := [0x60,0x80]

/-- Eight deployments and eleven approvals of one signer. -/
def sampleStep (i : ℕ) : Step :=
  { index := i
    phase := if i < 8 then .aDeploy else .other []
    label := []
    postconditionType := if i < 8 then .deploy else .approve
    signer := 7
    nonce := i
    target := if i < 8 then none else some 9
    value := 0
    dataOrInitCode := [UInt8.ofNat i]
    gasLimit := 100000
    maxFeePerGas := 50
    maxPriorityFeePerGas := 10
    gasCeilings := none
    deployment := sampleSlots[i]?.map fun slot =>
      ⟨slot,Fin.ofNat (2^160) (100+i),sampleHash sampleCode⟩ }

def sampleRuntime : Runtime :=
  { keccak256 := sampleHash
    execDigest := ['d']
    steps := (List.range 19).map sampleStep
    addr := fun _ => 100
    deployer := 7
    tester := 8
    factory := 20
    npm := 21
    nvda := 22
    pool := 23
    canaryTokenSymbol := ['B']
    lp := ⟨30,31,10000,200,1,0,-200,200,1,1,1,1,1,7⟩
    buy := ⟨1,8,8,40,41,1,1,1,1,1,1,1⟩
    sell := ⟨2,8,8,40,41,1,1,1,1,1,1,1,1⟩
    lock := ⟨8,0,1,604800,10000,1⟩
    dependencies := List.replicate 6 ⟨50,sampleHash sampleCode,2⟩
    expiresAtUtc := some 1000
    exposurePrincipalWei := 10^16
    exposureGasWei := 10^15
    capMicro := 130000000
    authFlags := ⟨true,true,true,true⟩
    signableHash := fun t => Fin.ofNat (2^256) t.nonce
    receiptPolls := 3
    hasPriceProvider := true }

def sampleHashOf (n : ℕ) : Text := ['0','x',Char.ofNat (97+n)]

/-- The mined transaction of a step, as the packet has it. -/
def minedTx (t : Step) : ChainTx :=
  { chainId := some 4663
    source := t.signer
    target := t.target
    nonce := t.nonce
    type := 2
    value := 0
    input := t.dataOrInitCode
    gas := t.gasLimit
    maxFeePerGas := some t.maxFeePerGas
    maxPriorityFeePerGas := some t.maxPriorityFeePerGas
    accessList := []
    blobVersionedHashes := none
    maxFeePerBlobGas := none }

/-- A chain on which the first `n` deployments are mined, and a wallet that sends. -/
def sampleAnswer (n : ℕ) : (q : Query) → Except Failure (Answer q)
  | .chainId => .ok 4663
  | .accounts => .ok [7]
  | .getTransactionCount _ _ => .ok n
  | .getCode a => .ok (if a = 50 ∨ 100 ≤ a.val ∧ a.val < 100+n then sampleCode else [])
  | .getBlockByNumber => .ok ⟨20,500⟩
  | .getBalance _ => .ok (10^18)
  | .call _ => .ok (List.replicate 31 0 ++ [32] ++ List.replicate 31 0 ++ [1,66])
  | .estimateGas _ => .ok 90000
  | .price => .ok (some ⟨some 3000000000,some 3000000001,some 10,some 20⟩)
  | .getTransactionByHash txHash =>
    .ok (if txHash = sampleHashOf (n-1) then some (minedTx (sampleStep (n-1))) else none)
  | .getTransactionReceipt txHash =>
    .ok (some
      { transactionHash := txHash
        status := 1
        contractAddress := some (Fin.ofNat (2^160) (100+(n-1)))
        logs := [] })
  | .sleep => .ok ()
  | .sendTransaction _ _ => .ok (sampleHashOf n)

def sampleOracle (n : ℕ) : Oracle Rpc Failure (fun _ _ => True) := ⟨sampleAnswer n,fun _ => trivial⟩

/-- `k` awaits, each answered by the chain with `n` deployments. -/
def answers (n k : ℕ) : List (Page.Action Rpc Failure Method (fun _ _ => True)) :=
  List.replicate k (.answer (sampleOracle n) [])

/-- The first step is sent; the page crashes with the hash pending, verifies the step after
the reload and sends the next one. -/
def sampleActions : List (Page.Action Rpc Failure Method (fun _ _ => True)) :=
  [.reload,.call .markConnected []] ++ answers 0 2 ++ [.call .reconcile []] ++
    [.call (.sendCurrent 500) []] ++ answers 0 17 ++
    [.reload,.call .markConnected []] ++ answers 1 2 ++ [.call .reconcile []] ++ answers 1 5 ++
    [.call (.sendCurrent 600) []] ++ answers 1 16

def samplePage (acts : List (Page.Action Rpc Failure Method (fun _ _ => True))) : OperatorPage :=
  Machine.run (Page.exec sends sampleRuntime.app) (Page.blank Storage.empty) acts

theorem sampleRun_sends :
    (samplePage sampleActions).log =
        [.invoked 0 [],.invoked 1 [some (sampleRuntime.entryOf 0 (sampleHashOf 0))]] ∧
      AtMostOnce (samplePage sampleActions).log ∧
      InOrder sampleRuntime (samplePage sampleActions).log :=
  ⟨by decide +kernel,sends_at_most_once sampleRuntime ⟨_,sampleActions,rfl,rfl⟩⟩

end Canary
end BpsProtocol
