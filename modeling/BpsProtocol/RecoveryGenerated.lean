import BpsProtocol.RecoveryGenerate

/-! The generated recovery packet against the reviewed plan and against the operator.
Whatever codec the generator is given, the plan it writes is the reviewed one but for the word of
the deadline in two calls.  The operator binds it, if the earlier packets are the ones it knows,
and its exposure gate covers all that the six steps may cost. -/
namespace BpsProtocol
namespace Canary
namespace Recovery

open Checked MerkleProof FloorCap

theorem expect_eq_ok {c : Prop} [Decidable c] {reason : String} {u : Unit} :
    expect c reason = .ok u ↔ c := by
  unfold expect
  split <;> simp_all

theorem demand_eq_ok {c : Prop} [Decidable c] {label : Text} {what : String} {u : Unit} :
    demand c label what = .ok u ↔ c := expect_eq_ok

/-! ## The refreshed calls -/

/-- Two calls that are the same but for one word, in which one number takes another's place. -/
structure WordMoved (oldData newData : Bytes) (offset before after : ℕ) : Prop where
  aligned : ∃ k, offset = 4+32*k
  length : newData.length = oldData.length
  start : newData.take offset = oldData.take offset
  rest : newData.drop (offset+32) = oldData.drop (offset+32)
  before : deadlineWord oldData offset = some before
  after : deadlineWord newData offset = some after

/-- Two calls that decode to the same arguments but for the last. -/
structure LastMoved (abi : RouterAbi) (oldData newData : Bytes) (before after : ℕ) : Prop where
  decoded : ∃ dec dec2, abi.decodeFunctionData oldData = .ok dec ∧
    abi.decodeFunctionData newData = .ok dec2 ∧ dec2.2.dropLast = dec.2.dropLast ∧
    dec.2.getLast?.map Arg.toBigInt = some before ∧ dec2.2.getLast?.map Arg.toBigInt = some after

theorem mem_diffBytes {oldData newData : Bytes} {i : ℕ} :
    i ∈ diffBytes oldData newData ↔ i < oldData.length ∧ oldData[i]? ≠ newData[i]? := by
  rw [diffBytes,List.mem_filter,List.mem_range,decide_eq_true_eq]

/-- Where no difference is listed, the bytes are the same. -/
theorem agree_outside {oldData newData : Bytes} {i : ℕ} (hlength : newData.length = oldData.length)
    (h : i ∉ diffBytes oldData newData) : newData[i]? = oldData[i]? := by
  by_cases hi : i < oldData.length
  · by_contra hne
    exact h (mem_diffBytes.2 ⟨hi,fun heq => hne heq.symm⟩)
  · have hold : oldData[i]? = none := List.getElem?_eq_none (not_lt.1 hi)
    have hnew : newData[i]? = none := List.getElem?_eq_none (hlength ▸ not_lt.1 hi)
    rw [hold,hnew]

theorem splitLast_eq_ok {args : List Arg} {x : List Arg × ℕ} : splitLast args = .ok x ↔
    x.1 = args.dropLast ∧ args.getLast?.map Arg.toBigInt = some x.2 := by
  unfold splitLast
  cases hlast : args.getLast? with
  | none => simp
  | some last =>
    simp only [Except.ok.injEq,Option.map_some,Option.some.injEq,Prod.ext_iff]
    rw [eq_comm (a := args.dropLast)]

/-- The comparison passes calls that are the same but for the deadline. -/
theorem changedWord_ok {label : Text} {newDeadline offset : ℕ} {oldData newData : Bytes}
    (h : changedWord label newDeadline oldData newData = .ok offset) :
    WordMoved oldData newData offset OLD_DEADLINE newDeadline := by
  simp only [changedWord,bind_eq_ok,demand_eq_ok,exists_const] at h
  obtain ⟨hlength,hselector,h⟩ := h
  cases hdiff : diffBytes oldData newData with
  | nil =>
    rw [hdiff] at h
    cases h
  | cons first rest =>
    rw [hdiff] at h
    simp only [bind_eq_ok,demand_eq_ok,exists_const,orRevert_eq_ok,pure_eq_ok,
      List.find?_eq_none,Bool.or_eq_true,decide_eq_true_eq,not_or,not_lt,not_le] at h
    obtain ⟨hinside,_,hnew,_,hold,⟨rfl,rfl⟩,rfl⟩ := h
    have houtside : ∀ i, (i < 4+(first-4)/32*32 ∨ 4+(first-4)/32*32+32 ≤ i) →
        newData[i]? = oldData[i]? := by
      intro i hi
      refine agree_outside hlength fun hmem => ?_
      rw [hdiff] at hmem
      have := hinside i hmem
      omega
    refine ⟨⟨(first-4)/32,by rw [mul_comm]⟩,hlength,?_,?_,hold,hnew⟩
    · refine List.ext_getElem? fun i => ?_
      rw [List.getElem?_take,List.getElem?_take]
      split
      · rename_i hi
        exact houtside i (.inl hi)
      · rfl
    · refine List.ext_getElem? fun i => ?_
      rw [List.getElem?_drop,List.getElem?_drop]
      exact houtside _ (.inr (Nat.le_add_right _ _))

theorem refreshDeadline_ok {T : Tools} {newDeadline : ℕ} {label : Text} {oldData : Bytes}
    {r : Refreshed} (h : refreshDeadline T newDeadline label oldData = .ok r) :
    WordMoved oldData r.newData r.wordOffsetBytes OLD_DEADLINE newDeadline ∧
      LastMoved T.abi oldData r.newData OLD_DEADLINE newDeadline ∧
      r.newDataKeccak = T.env.keccak256 r.newData := by
  simp only [refreshDeadline,bind_eq_ok,demand_eq_ok,exists_const,splitLast_eq_ok,pure_eq_ok] at h
  obtain ⟨dec,hdec,old,⟨hold,holdLast⟩,hbound,newData,-,offset,hword,dec2,hdec2,new,
    ⟨hnew,hnewLast⟩,hsame,hdeadline,rfl⟩ := h
  refine ⟨changedWord_ok hword,⟨dec,dec2,hdec,hdec2,?_,?_,?_⟩,rfl⟩
  · rw [← hnew,← hsame,hold]
  · rw [holdLast,hbound]
  · rw [hnewLast,hdeadline]

/-! ## The remaining transactions -/

/-- A reviewed step and what the generator makes of it: a call without a deadline is taken over,
one with a deadline refreshed. -/
inductive Taken (T : Tools) (newDeadline : ℕ) (t : SourceTx) : Bytes → Option RefreshStep → Prop
  | same (h : T.env.keccak256 t.dataOrInitCode = t.dataKeccak) :
    Taken T newDeadline t t.dataOrInitCode none
  | refreshed {data : Bytes} {s : RefreshStep} (hplace : s.originalIndex = t.originalIndex)
      (hhash : s.newDataKeccak = T.env.keccak256 data)
      (hword : WordMoved t.dataOrInitCode data s.wordOffsetBytes OLD_DEADLINE newDeadline)
      (hlast : LastMoved T.abi t.dataOrInitCode data OLD_DEADLINE newDeadline) :
    Taken T newDeadline t data (some s)

section Taken

variable {T : Tools} {newDeadline : ℕ} {t : SourceTx} {data : Bytes} {s : RefreshStep}

theorem Taken.kept (h : Taken T newDeadline t data none) :
    data = t.dataOrInitCode ∧ T.env.keccak256 t.dataOrInitCode = t.dataKeccak := by
  generalize hx : (none : Option RefreshStep) = x at h
  cases h with
  | same h => exact ⟨rfl,h⟩
  | refreshed _ _ _ _ => cases hx

theorem Taken.moved (h : Taken T newDeadline t data (some s)) :
    s.originalIndex = t.originalIndex ∧ s.newDataKeccak = T.env.keccak256 data ∧
      WordMoved t.dataOrInitCode data s.wordOffsetBytes OLD_DEADLINE newDeadline ∧
      LastMoved T.abi t.dataOrInitCode data OLD_DEADLINE newDeadline := by
  generalize hx : some s = x at h
  cases h with
  | same _ => cases hx
  | refreshed hplace hhash hword hlast =>
    obtain rfl := Option.some.inj hx
    exact ⟨hplace,hhash,hword,hlast⟩

end Taken

theorem remainingTx_ok {T : Tools} {tester : Address} {newDeadline : ℕ} {x : SourceTx × ℕ}
    {y : RawTx × Option RefreshStep} (h : remainingTx T tester newDeadline x = .ok y) :
    x.1.signer = tester ∧ y.1 = x.1.remaining tester x.2 y.1.dataOrInitCode ∧
      Taken T newDeadline x.1 y.1.dataOrInitCode y.2 := by
  simp only [remainingTx,bind_eq_ok,demand_eq_ok,exists_const] at h
  obtain ⟨hsigner,h⟩ := h
  split at h
  · simp only [bind_eq_ok,pure_eq_ok] at h
    obtain ⟨r,hr,rfl⟩ := h
    obtain ⟨hword,hlast,hhash⟩ := refreshDeadline_ok hr
    exact ⟨hsigner,rfl,.refreshed rfl hhash hword hlast⟩
  · simp only [bind_eq_ok,demand_eq_ok,exists_const,pure_eq_ok] at h
    obtain ⟨hhash,rfl⟩ := h
    exact ⟨hsigner,rfl,.same hhash⟩

/-- What the generator makes of the six steps. -/
structure Remaining (T : Tools) (S : Sources) (txs : List RawTx) (steps : List RefreshStep) :
    Prop where
  source : S.src6.length = 6
  length : txs.length = 6
  step : ∀ (k : ℕ) (t : SourceTx) (u : RawTx), S.src6[k]? = some t → txs[k]? = some u →
    t.signer = S.policy.wallets.tester ∧
    u = t.remaining S.policy.wallets.tester k u.dataOrInitCode ∧
    ∃ s, Taken T S.newDeadline t u.dataOrInitCode s ∧ ∀ x ∈ s, x ∈ steps
  refreshed : ∀ s ∈ steps, ∃ (k : ℕ) (t : SourceTx) (u : RawTx), S.src6[k]? = some t ∧
    txs[k]? = some u ∧ Taken T S.newDeadline t u.dataOrInitCode (some s)
  places : txs.map RawTx.originalIndex = (List.range 6).map (·+14)
  nonces : txs.map RawTx.nonce = (List.range 6).map (·+2)
  steps : steps.map RefreshStep.originalIndex = [15,17]

theorem remainingTxs_ok {T : Tools} {S : Sources} {r : List RawTx × List RefreshStep}
    (h : remainingTxs T S = .ok r) : Remaining T S r.1 r.2 := by
  simp only [remainingTxs,bind_eq_ok,expect_eq_ok,exists_const,pure_eq_ok] at h
  obtain ⟨hsource,ys,hys,⟨hplaces,hnonces⟩,hsteps,rfl⟩ := h
  have hall := List.forall₂_iff_get.1 (mapM_eq_ok.1 hys)
  have hlength : ys.length = 6 := by
    rw [← hall.1,List.length_zipIdx,hsource]
  have hround : ∀ k t y, S.src6[k]? = some t → ys[k]? = some y →
      t.signer = S.policy.wallets.tester ∧
        y.1 = t.remaining S.policy.wallets.tester k y.1.dataOrInitCode ∧
        Taken T S.newDeadline t y.1.dataOrInitCode y.2 := by
    intro k t y ht hy
    obtain ⟨hkt,rfl⟩ := List.getElem?_eq_some_iff.1 ht
    obtain ⟨hky,rfl⟩ := List.getElem?_eq_some_iff.1 hy
    have hk := hall.2 k (by rw [List.length_zipIdx]; exact hkt) hky
    simp only [List.get_eq_getElem,List.getElem_zipIdx,Nat.zero_add] at hk
    exact remainingTx_ok hk
  rw [hlength] at hplaces hnonces
  refine ⟨hsource,by rw [List.length_map,hlength],?_,?_,?_,?_,hsteps⟩
  · intro k t u ht hu
    rw [List.getElem?_map,Option.map_eq_some_iff] at hu
    obtain ⟨y,hy,rfl⟩ := hu
    obtain ⟨hsigner,htx,htaken⟩ := hround k t y ht hy
    refine ⟨hsigner,htx,y.2,htaken,fun x hx => ?_⟩
    exact List.mem_filterMap.2 ⟨y,List.mem_of_getElem? hy,hx⟩
  · intro s hs
    obtain ⟨y,hy,hys⟩ := List.mem_filterMap.1 hs
    obtain ⟨k,hk⟩ := List.getElem?_of_mem hy
    have hlt : k < S.src6.length := by
      rw [hsource,← hlength]
      exact (List.getElem?_eq_some_iff.1 hk).1
    have ht := List.getElem?_eq_getElem hlt
    refine ⟨k,S.src6[k],y.1,ht,by rw [List.getElem?_map,hk,Option.map_some],?_⟩
    rw [← hys]
    exact (hround k _ y ht hk).2.2
  · rw [List.map_map]
    exact hplaces
  · rw [List.map_map]
    exact hnonces

/-- Where a list is known from its places, so are its members. -/
theorem at_index {α β : Type} {l : List β} {f : β → α} {g : ℕ → α} {n k : ℕ} {u : β}
    (heq : l.map f = (List.range n).map g) (hu : l[k]? = some u) : f u = g k := by
  have hk := congrArg (fun l => l[k]?) heq
  simp only [List.getElem?_map,hu,Option.map_some] at hk
  obtain ⟨n,hn,hfn⟩ := Option.map_eq_some_iff.1 hk.symm
  rw [List.getElem?_eq_some_iff] at hn
  obtain ⟨hlt,rfl⟩ := hn
  rw [← hfn,List.getElem_range]

namespace Remaining

variable {T : Tools} {S : Sources} {txs : List RawTx} {steps : List RefreshStep} {k : ℕ}
  {t : SourceTx} {u : RawTx}

theorem place (h : Remaining T S txs steps) (ht : S.src6[k]? = some t) (hu : txs[k]? = some u) :
    t.originalIndex = k+14 ∧ t.nonce = k+2 := by
  have htx := (h.step k t u ht hu).2.1
  have hplace : u.originalIndex = k+14 := at_index (g := (·+14)) h.places hu
  have hnonce : u.nonce = k+2 := at_index (g := (·+2)) h.nonces hu
  rw [htx] at hplace hnonce
  exact ⟨hplace,hnonce⟩

/-- The second and the fourth of the steps are refreshed, the others are not. -/
theorem taken (h : Remaining T S txs steps) (ht : S.src6[k]? = some t) (hu : txs[k]? = some u) :
    if k = 1 ∨ k = 3 then ∃ s ∈ steps, Taken T S.newDeadline t u.dataOrInitCode (some s)
    else Taken T S.newDeadline t u.dataOrInitCode none := by
  obtain ⟨hplace,-⟩ := h.place ht hu
  split
  · rename_i hk
    have hmem : k+14 ∈ steps.map RefreshStep.originalIndex := by
      rw [h.steps]
      rcases hk with rfl | rfl <;> decide
    obtain ⟨s,hs,hindex⟩ := List.mem_map.1 hmem
    obtain ⟨k',t',u',ht',hu',htaken⟩ := h.refreshed s hs
    have hplace' := (h.place ht' hu').1
    have hown := htaken.moved.1
    obtain rfl : k' = k := by omega
    obtain rfl := Option.some.inj (ht.symm.trans ht')
    obtain rfl := Option.some.inj (hu.symm.trans hu')
    exact ⟨s,hs,htaken⟩
  · rename_i hk
    obtain ⟨s,htaken,hs⟩ := (h.step k t u ht hu).2.2
    cases s with
    | none => exact htaken
    | some s =>
      refine absurd ?_ hk
      have hmem : s.originalIndex ∈ [15,17] := by
        rw [← h.steps]
        exact List.mem_map_of_mem (hs s rfl)
      have hown := htaken.moved.1
      simp only [List.mem_cons,List.not_mem_nil,or_false] at hmem
      omega

end Remaining

/-! ## The plan -/

/-- What a generator that returns has done. -/
structure GeneratedFrom (T : Tools) (S : Sources) (g : Generated) (txs : List RawTx)
    (steps : List RefreshStep) (e : Exposed) : Prop where
  remaining : Remaining T S txs steps
  exposed : exposure S txs = .ok e
  errors : buildErrors T.env.dateParse g.packet g.policy S.snap = []
  packet : g.packet = recoveryPacket T S txs steps e (T.env.digestOf g.authorization)
  policy : g.policy =
    { S.policy with recoveryAuthorizationDigest := T.env.digestOf g.authorization }
  object : g.authorization = canonicalObject g.packet g.policy S.snap

/-- The digest in the packet and in the policy is no part of what is digested. -/
theorem generate_ok {T : Tools} {S : Sources} {g : Generated} (h : generate T S = .ok g) :
    ∃ txs steps e, GeneratedFrom T S g txs steps e := by
  simp only [generate,bind_eq_ok,expect_eq_ok,exists_const,pure_eq_ok] at h
  obtain ⟨r,hr,e,he,herrors,rfl⟩ := h
  exact ⟨r.1,r.2,e,remainingTxs_ok hr,he,herrors,rfl,rfl,rfl⟩

/-- A remaining step of a generated packet beside the reviewed step at its place. -/
structure Renews (T : Tools) (S : Sources) (g : Generated) (k : ℕ) (t : SourceTx) (u : RawTx) :
    Prop where
  place : t.originalIndex = k+14 ∧ t.nonce = k+2 ∧ t.signer = S.policy.wallets.tester
  tx : u = t.remaining S.policy.wallets.tester k u.dataOrInitCode
  deadline : k = 1 ∨ k = 3 → ∃ s ∈ g.packet.header.deadlineRefresh.steps,
    s.originalIndex = k+14 ∧ s.newDataKeccak = T.env.keccak256 u.dataOrInitCode ∧
    WordMoved t.dataOrInitCode u.dataOrInitCode s.wordOffsetBytes OLD_DEADLINE S.newDeadline ∧
    LastMoved T.abi t.dataOrInitCode u.dataOrInitCode OLD_DEADLINE S.newDeadline
  unchanged : ¬(k = 1 ∨ k = 3) → u.dataOrInitCode = t.dataOrInitCode ∧
    T.env.keccak256 t.dataOrInitCode = t.dataKeccak

theorem Remaining.renews {T : Tools} {S : Sources} {g : Generated} {txs : List RawTx}
    {steps : List RefreshStep} {k : ℕ} {t : SourceTx} {u : RawTx} (h : Remaining T S txs steps)
    (hg : g.packet.header.deadlineRefresh.steps = steps) (ht : S.src6[k]? = some t)
    (hu : txs[k]? = some u) : Renews T S g k t u := by
  obtain ⟨hplace,hnonce⟩ := h.place ht hu
  obtain ⟨hsigner,htx,-⟩ := h.step k t u ht hu
  have htaken := h.taken ht hu
  refine ⟨⟨hplace,hnonce,hsigner⟩,htx,fun hk => ?_,fun hk => ?_⟩
  · rw [if_pos hk] at htaken
    obtain ⟨s,hs,htaken⟩ := htaken
    exact ⟨s,by rw [hg]; exact hs,by rw [htaken.moved.1,hplace],htaken.moved.2⟩
  · rw [if_neg hk] at htaken
    exact htaken.kept

/-- The plan of a generated packet is that of the six reviewed steps: of the tester, in the same
order and with the same calls, but that in the second and in the fourth one word, the deadline, is
moved from the bound value to six hours after the pinned block. -/
theorem generated_plan {T : Tools} {S : Sources} {g : Generated} (h : generate T S = .ok g) :
    S.src6.length = 6 ∧ g.packet.immediateTransactions.length = 6 ∧
      g.packet.header.deadlineRefresh.steps.map RefreshStep.originalIndex = [15,17] ∧
      ∀ (k : ℕ) (t : SourceTx) (u : RawTx), S.src6[k]? = some t →
        g.packet.immediateTransactions[k]? = some u → Renews T S g k t u := by
  obtain ⟨txs,steps,e,hg⟩ := generate_ok h
  rw [hg.packet]
  exact ⟨hg.remaining.source,hg.remaining.length,hg.remaining.steps,fun k t u ht hu =>
    hg.remaining.renews (by rw [hg.packet]; rfl) ht hu⟩

/-! A plan of six reviewed steps; the two trades carry the bound deadline. -/

/-- The kinds of the arguments of a trade, an address at one place. -/
def sampleDecode : List Bool → Bytes → List Arg
  | [], _ => []
  | isAddress::kinds, data =>
    let word := natOf (data.take 32)
    (if isAddress then .address (Fin.ofNat (2^160) word) else .uint word)::
      sampleDecode kinds (data.drop 32)

def buySelector : Bytes := [0xfb,0x67,0xed,0x99]

def sellSelector : Bytes := [0x3e,0x11,0x8c,0x91]

def sampleAbi : RouterAbi where
  decodeFunctionData data :=
    if data.take 4 = buySelector then
      .ok (text "buyExactWethForBps",sampleDecode [false,false,false,true,false] (data.drop 4))
    else if data.take 4 = sellSelector then
      .ok (text "sellExactBpsForWeth",
        sampleDecode [false,false,false,false,true,false] (data.drop 4))
    else .error "AbiFunctionSignatureNotFoundError"
  encodeFunctionData name args := .ok ((if name = text "buyExactWethForBps" then buySelector
    else sellSelector) ++ args.flatMap fun x => Bytes.bigEndian 32 x.toBigInt)

def sampleTools : Tools where
  env := sampleEnv Canonical
  abi := sampleAbi
  toISOString _ := ['e']
  executionDigest _ := 9

def sampleCall (i : ℕ) : Bytes :=
  if i = 1 then buySelector ++ [5,6,7,8,OLD_DEADLINE].flatMap (Bytes.bigEndian 32)
  else if i = 3 then sellSelector ++ [5,6,7,9,8,OLD_DEADLINE].flatMap (Bytes.bigEndian 32)
  else [1,2,3,4]

def sampleSource (i : ℕ) : SourceTx where
  originalIndex := i+14
  phase := .other (text "B")
  label := sampleLabels.getD (i+5) []
  signer := 8
  nonce := i+2
  target := some 9
  value := none
  dataOrInitCode := sampleCall i
  dataKeccak := Fin.ofNat (2^256) (sampleCall i).length
  gasLimit := 2000000
  maxFeePerGas := 1000000000
  maxPriorityFeePerGas := 10000000

def sampleSources : Sources where
  rehearsal :=
    { immediateTransactions := [⟨2000000,1000000000⟩]
      allInclusiveGasWei := 2*10^15
      deployerWeth := 6*10^15
      testerWeth := 4*10^15
      lpUsage := sampleLpUsage
      buyAccounting := sampleBuy
      sellAccounting := sampleSell
      lockAndWithdraw := sampleLock
      dirtyTrackedTree := false }
  v8 := (List.range 6).map sampleSource
  policy := samplePolicy
  anchorFile :=
    { completedSteps := (List.range 13).map sampleAnchor
      realizedGasWei := 13*10^14
      priors := boundPriors
      poolAddress := 23
      positionTokenId := 12 }
  snap := sampleSnapshot
  selectedMicroUsd := 4000000000

theorem sampleSources_authorized (txs : List RawTx) (steps : List RefreshStep) (e : Exposed) :
    authorizationErrors (recoveryPacket sampleTools sampleSources txs steps e []) samplePolicy =
      [] := by
  simp [authorizationErrors,recoveryPacket,samplePolicy,sampleFlags,Flags.all,sampleSources,
    PRIORITY_CEILING_WEI]

theorem sampleSources_generate : ∃ g, generate sampleTools sampleSources = .ok g := by
  refine exists_eq_ok ?_
  have hpolicy : sampleSources.policy = samplePolicy := rfl
  simp only [generate,buildErrors,hpolicy,sampleSources_authorized]
  decide +kernel

theorem sampleSources_plan : ∃ g, generate sampleTools sampleSources = .ok g ∧
    sampleSources.src6.length = 6 ∧ g.packet.immediateTransactions.length = 6 ∧
      g.packet.header.deadlineRefresh.steps.map RefreshStep.originalIndex = [15,17] ∧
      ∀ (k : ℕ) (t : SourceTx) (u : RawTx), sampleSources.src6[k]? = some t →
        g.packet.immediateTransactions[k]? = some u →
        Renews sampleTools sampleSources g k t u := by
  obtain ⟨g,hg⟩ := sampleSources_generate
  exact ⟨g,hg,generated_plan hg⟩

/-! ## The two validators -/

section Validators

variable {dateParse : Text → Option ℕ} {a : Packet} {p : Policy} {s : Snapshot}

/-- What a build without errors says of the packet. -/
structure Built (dateParse : Text → Option ℕ) (a : Packet) (p : Policy) (s : Snapshot) : Prop where
  anchors : a.completedSteps.length = 13
  anchor : ∀ i x, a.completedSteps[i]? = some x → x.originalIndex = i+1 ∧
    x.nonce = x.originalIndex+2
  range : completedRange p.wallets.deployer 13 a.completedSteps = true
  realized : realizedSum a.completedSteps = a.realizedGasWei
  contracts : ∀ slot ∈ allSlots, s.completedContracts slot ≠ none
  oldDeadline : a.header.deadlineRefresh.oldDeadline = OLD_DEADLINE
  expiry : expiryEpoch dateParse a.header.expiresAtUtc =
    some a.header.deadlineRefresh.newDeadline
  steps : a.header.deadlineRefresh.steps.map RefreshStep.originalIndex = [15,17]
  words : ∀ x ∈ a.header.deadlineRefresh.steps,
    x.errors a.header.deadlineRefresh.newDeadline a.immediateTransactions = []
  exposure : a.realizedGasWei+a.remainingPrincipalWei+a.remainingMaxGasWei = a.aggregateWei
  chainId : a.header.chainId = 4663 ∧ p.chainId = 4663
  cap : a.header.maxAllInclusiveExposureUsd = 130
  deployer : a.header.wallets.deployer = p.wallets.deployer
  tester : a.header.wallets.tester = p.wallets.tester
  priority : a.header.gasPolicy = ⟨PRIORITY_CEILING_WEI,true,true⟩
  stepCount : a.header.originalStepCount = 19
  nonces : s.expectedNonces = ⟨16,2⟩
  count : a.immediateTransactions.length = 6
  txs : ∀ t ∈ a.immediateTransactions, t.errors p.wallets.tester = []

theorem flatten_mapIdx_eq_nil {α β : Type} {f : ℕ → α → List β} {xs : List α} :
    (xs.mapIdx f).flatten = [] ↔ ∀ i x, xs[i]? = some x → f i x = [] := by
  rw [List.flatten_eq_nil_iff]
  constructor
  · intro h i x hx
    refine h _ (List.mem_mapIdx.2 ?_)
    obtain ⟨hi,rfl⟩ := List.getElem?_eq_some_iff.1 hx
    exact ⟨i,hi,rfl⟩
  · intro h l hl
    obtain ⟨i,hi,rfl⟩ := List.mem_mapIdx.1 hl
    exact h i _ (List.getElem?_eq_getElem hi)

theorem build_ok (h : buildErrors dateParse a p s = []) : Built dateParse a p s := by
  simp only [buildErrors,completedErrors,deadlineErrors,authorizationErrors,planErrors,
    List.append_eq_nil_iff,errIf_eq_nil,List.flatMap_eq_nil_iff,flatten_mapIdx_eq_nil,
    Anchor.errors,not_not,not_or,Bool.not_eq_false,Bool.not_eq_true,
    Option.isNone_iff_eq_none,and_assoc] at h
  obtain ⟨hanchors,hanchor,hrange,hrealized,hcontracts,hold,-,hexpiry,hsteps,hwords,-,hexposure,
    -,-,-,-,hchain,hpchain,-,-,-,-,hcap,hdeployer,htester,hpriority,hmaxFee,hgasLimit,hcount,-,-,
    hdnonce,htnonce,-,-,-,-,-,hlength,htxs,-⟩ := h
  refine ⟨hanchors,hanchor,hrange,hrealized,hcontracts,hold,hexpiry,hsteps,hwords,hexposure,
    ⟨hchain,hpchain⟩,hcap,hdeployer,htester,?_,hcount,?_,hlength,htxs⟩
  · rw [← hpriority]
    exact congrArg₂ (GasPolicy.mk _) hmaxFee hgasLimit
  · exact congrArg₂ Nonces.mk hdnonce htnonce

theorem txErrors_ok {tester : Address} {t : RawTx} (h : t.errors tester = []) :
    t.signer = tester ∧ t.canonical.gasErrors = [] := by
  simp only [RawTx.errors,List.append_eq_nil_iff,errIf_eq_nil,not_not,and_assoc] at h
  obtain ⟨-,hsigner,hreviewed,hcost,hmaxFee,hpriority,hgasLimit⟩ := h
  simp only [CanonicalTx.gasErrors,List.append_eq_nil_iff,errIf_eq_nil,not_not,and_assoc]
  exact ⟨hsigner,hreviewed,hreviewed.symm ▸ hcost,hmaxFee,hpriority,hgasLimit⟩

theorem map_canonical {α : Type} (f : CanonicalTx → α) (txs : List RawTx) :
    (txs.map RawTx.canonical).map f = txs.map fun t => f t.canonical :=
  List.map_map

theorem find_canonical (n : ℕ) (txs : List RawTx) :
    (txs.map RawTx.canonical).find? (fun t => t.originalIndex = n) =
      (txs.find? fun t => t.originalIndex = n).map RawTx.canonical :=
  List.find?_map ..

/-- A refreshed step is in order for the one validator as for the other. -/
theorem strictErrors_of_errors {newDeadline : ℕ} {txs : List RawTx} {x : RefreshStep}
    (h : x.errors newDeadline txs = []) :
    x.strictErrors newDeadline (txs.map RawTx.canonical) = [] := by
  unfold RefreshStep.errors at h
  unfold RefreshStep.strictErrors
  rw [find_canonical]
  cases hfind : txs.find? fun t => t.originalIndex = x.originalIndex with
  | none =>
    rw [hfind] at h
    cases h
  | some t =>
    simp only [hfind] at h
    simp only [Option.map_some,RawTx.canonical]
    cases hword : deadlineWord t.dataOrInitCode x.wordOffsetBytes with
    | none =>
      rw [hword] at h
      cases h
    | some word =>
      simp only [hword] at h
      simpa only [errIf_eq_nil] using h

theorem Built.contracts_length (h : Built dateParse a p s) :
    (canonicalObject a p s).completedContracts.length = 8 := by
  have hall : ∀ slot ∈ allSlots, ((s.completedContracts slot).map fun cc =>
      CompletedLeaf.mk slot cc.address cc.runtimeCodeHash).isSome = true := by
    intro slot hslot
    rw [Option.isSome_map,Option.isSome_iff_ne_none]
    exact h.contracts slot hslot
  rw [canonicalObject,List.filterMap_length_eq_length.2 hall]
  rfl

theorem Built.signers (h : Built dateParse a p s) (x : Anchor)
    (hx : x ∈ a.completedSteps) : x.signer = a.header.wallets.deployer := by
  have hrange := h.range
  simp only [completedRange,Bool.and_eq_true,List.all_eq_true,decide_eq_true_eq] at hrange
  rw [h.deployer]
  exact hrange.2 x hx

/-- The places and the nonces of the remaining steps, and their chain. -/
structure Ordered (a : Packet) : Prop where
  places : a.immediateTransactions.map RawTx.originalIndex = (List.range 6).map (·+14)
  nonces : a.immediateTransactions.map RawTx.nonce = (List.range 6).map (·+2)
  chainId : ∀ t ∈ a.immediateTransactions, t.chainId = 4663

theorem Ordered.remaining (h : Ordered a) {t : RawTx} (ht : t ∈ a.immediateTransactions) :
    14 ≤ t.originalIndex := by
  have hmem : t.originalIndex ∈ (List.range 6).map (·+14) := by
    rw [← h.places]
    exact List.mem_map_of_mem ht
  obtain ⟨k,-,hk⟩ := List.mem_map.1 hmem
  omega

/-- Beyond what the build checks, the strict validator reads the order of the steps and their
chain. -/
theorem strict_of_built (h : Built dateParse a p s) (ho : Ordered a) :
    validateRecoveryStrict dateParse (canonicalObject a p s) = [] := by
  have hcontracts := h.contracts_length
  have hlength : (canonicalObject a p s).immediate.length = 6 :=
    (List.length_map _).trans h.count
  simp only [validateRecoveryStrict,List.append_eq_nil_iff,errIf_eq_nil,
    List.flatMap_eq_nil_iff,flatten_mapIdx_eq_nil,not_not,not_or,and_assoc,hcontracts,hlength]
  refine ⟨if_pos h.chainId,if_pos h.cap,h.anchors,h.anchor,trivial,rfl,?_,?_,h.oldDeadline,
    h.expiry,h.steps,?_,if_pos h.count,trivial,?_,?_,?_,?_,?_⟩
  · exact List.all_eq_true.2 fun x hx => decide_eq_true (h.signers x hx)
  · exact congrArg GasPolicy.maxPriorityCeilingWei h.priority
  · exact fun x hx => strictErrors_of_errors (h.words x hx)
  · exact (map_canonical _ _).trans ho.places
  · exact (map_canonical _ _).trans ho.nonces
  · intro x hx
    obtain ⟨t,ht,rfl⟩ := List.mem_map.1 hx
    exact (txErrors_ok (h.txs t ht)).1.trans h.tester.symm
  · intro hany
    obtain ⟨x,hx,hle⟩ := List.any_eq_true.1 hany
    obtain ⟨t,ht,rfl⟩ := List.mem_map.1 hx
    have hle : t.originalIndex ≤ 13 := of_decide_eq_true hle
    have := ho.remaining ht
    omega
  · intro x hx
    obtain ⟨t,ht,rfl⟩ := List.mem_map.1 hx
    exact ⟨ho.chainId t ht,(txErrors_ok (h.txs t ht)).2⟩

end Validators

/-! ## Binding -/

section Binding

variable {env : Env Canonical} {x : Inputs}

/-- A packet that the build accepts, packaged as it is built. -/
structure Packaged (env : Env Canonical) (x : Inputs) : Prop where
  errors : buildErrors env.dateParse x.recoveryPacket x.recoveryPolicy x.recoverySnapshot = []
  ordered : Ordered x.recoveryPacket
  object : x.recoveryAuthorization =
    canonicalObject x.recoveryPacket x.recoveryPolicy x.recoverySnapshot
  digest_ne_nil : env.digestOf x.recoveryAuthorization ≠ []
  packetDigest : x.recoveryPacket.header.recoveryAuthorizationDigest =
    env.digestOf x.recoveryAuthorization
  policyDigest : x.recoveryPolicy.recoveryAuthorizationDigest =
    env.digestOf x.recoveryAuthorization
  executionDigest : x.signablesDigest x.recoveryAuthorization.immediate =
    x.recoveryPacket.header.remainingExecutionDigest
  refreshed : ∀ y ∈ x.recoveryPacket.header.deadlineRefresh.steps,
    refreshBound env.keccak256 x.recoveryAuthorization y = true

/-- None of the remaining steps is the deployer's, if the deployer is not the tester. -/
theorem Built.noDeployer_iff {dateParse : Text → Option ℕ} {a : Packet} {p : Policy} {s : Snapshot}
    (h : Built dateParse a p s) (ho : Ordered a) :
    (!(canonicalObject a p s).immediate.any fun t =>
      decide (t.originalIndex ≤ 13) || decide (t.signer = a.header.wallets.deployer)) = true ↔
      p.wallets.tester ≠ p.wallets.deployer := by
  rw [Bool.not_eq_true',List.any_eq_false]
  constructor
  · intro hany heq
    obtain ⟨t,ht⟩ : ∃ t, t ∈ a.immediateTransactions :=
      List.exists_mem_of_length_pos (by rw [h.count]; decide)
    refine hany t.canonical (List.mem_map_of_mem ht) ?_
    rw [Bool.or_eq_true,decide_eq_true_eq,decide_eq_true_eq]
    exact .inr ((txErrors_ok (h.txs t ht)).1.trans (heq.trans h.deployer.symm))
  · intro hne y hy hor
    obtain ⟨t,ht,rfl⟩ := List.mem_map.1 hy
    rw [Bool.or_eq_true,decide_eq_true_eq,decide_eq_true_eq] at hor
    rcases hor with hle | hsigner
    · have hle : t.originalIndex ≤ 13 := hle
      have := ho.remaining ht
      omega
    · have hsigner : t.signer = a.header.wallets.deployer := hsigner
      rw [(txErrors_ok (h.txs t ht)).1,h.deployer] at hsigner
      exact hne hsigner

/-- Such a packet is bound, if it renews the packets that the operator knows, its tester is not
its deployer, and its text repeats no key. -/
theorem Packaged.binds_iff (h : Packaged env x) :
    (∃ R, bindAndVerifyPacket env x = .ok R) ↔
      x.recoveryPacket.header.priors = boundPriors ∧
      x.recoveryPolicy.wallets.tester ≠ x.recoveryPolicy.wallets.deployer ∧
      x.noDuplicateKeys = true := by
  have hb := build_ok h.errors
  have hstrict := strict_of_built hb h.ordered
  have hdigest : eqDigest (env.digestOf x.recoveryAuthorization)
      (env.digestOf x.recoveryAuthorization) = true := by
    simp [eqDigest,h.digest_ne_nil]
  have hbind : (∃ R, bindAndVerifyPacket env x = .ok R) ↔
      (bindChecks env x).all Prod.snd = true := by
    unfold bindAndVerifyPacket
    split <;> simp_all
  rw [hbind]
  simp only [bindChecks,List.all_cons,List.all_nil,Bool.and_true,Bool.and_eq_true,
    List.isEmpty_iff,decide_eq_true_eq,h.errors,← h.object,h.packetDigest,h.policyDigest,hdigest,
    h.executionDigest,true_and]
  obtain ⟨a,p,s,pkg,noDuplicateKeys,signablesDigest⟩ := x
  obtain rfl : pkg = canonicalObject a p s := h.object
  have hrange := hb.range
  rw [← hb.deployer] at hrange
  have hnonces : (a.completedSteps.all fun x => decide (x.nonce = x.originalIndex+2)) = true := by
    refine List.all_eq_true.2 fun y hy => decide_eq_true ?_
    obtain ⟨i,hi⟩ := List.getElem?_of_mem hy
    exact (hb.anchor i y hi).2
  have hsteps : a.header.deadlineRefresh.steps.length = 2 := by
    rw [← List.length_map RefreshStep.originalIndex,hb.steps]
    rfl
  constructor
  · rintro ⟨-,hdup,-,hpriors,-,-,-,⟨-,hany⟩,-⟩
    exact ⟨hpriors,(hb.noDeployer_iff h.ordered).1 hany,hdup⟩
  · rintro ⟨hpriors,hne,hdup⟩
    have hdeployer := (hb.noDeployer_iff h.ordered).2 hne
    have htester : ((canonicalObject a p s).immediate.all fun t =>
        decide (t.signer = a.header.wallets.tester)) = true := by
      refine List.all_eq_true.2 fun y hy => decide_eq_true ?_
      obtain ⟨t,ht,rfl⟩ := List.mem_map.1 hy
      exact (txErrors_ok (hb.txs t ht)).1.trans hb.tester.symm
    refine ⟨hstrict,hdup,rfl,hpriors,⟨if_pos hb.stepCount,rfl⟩,hrange,⟨?_,hnonces⟩,
      ⟨⟨⟨⟨if_pos hb.count,?_⟩,?_⟩,htester⟩,hdeployer⟩,⟨?_,?_⟩,⟨⟨?_,?_⟩,?_⟩,
      ⟨⟨⟨hsteps,hb.oldDeadline⟩,hb.expiry⟩,List.all_eq_true.2 h.refreshed⟩,
      hb.contracts_length,if_pos hb.chainId,if_pos hb.cap⟩
    · have hplaces := hb.range
      simp only [completedRange,Bool.and_eq_true,decide_eq_true_eq] at hplaces
      exact hplaces.1
    · exact (map_canonical _ _).trans h.ordered.places
    · exact (map_canonical _ _).trans h.ordered.nonces
    · exact if_pos (congrArg Nonces.deployer hb.nonces)
    · exact if_pos (congrArg Nonces.tester hb.nonces)
    · exact congrArg GasPolicy.maxPriorityCeilingWei hb.priority
    · exact congrArg GasPolicy.maxFeeCeilingUnchanged hb.priority
    · exact congrArg GasPolicy.gasLimitCeilingUnchanged hb.priority

end Binding

section Generated

variable {T : Tools} {S : Sources} {g : Generated} {txs : List RawTx} {steps : List RefreshStep}
  {e : Exposed}

theorem Remaining.find (h : Remaining T S txs steps) {k : ℕ} {u : RawTx} (hu : txs[k]? = some u) :
    (txs.find? fun t => t.originalIndex = k+14) = some u := by
  rw [List.find?_eq_some_iff_getElem]
  obtain ⟨hk,rfl⟩ := List.getElem?_eq_some_iff.1 hu
  refine ⟨decide_eq_true (at_index (g := (·+14)) h.places hu),k,hk,rfl,fun j hj => ?_⟩
  have hplace : txs[j].originalIndex = j+14 :=
    at_index (g := (·+14)) h.places (List.getElem?_eq_getElem (hj.trans hk))
  rw [Bool.not_eq_true',decide_eq_false_iff_not,hplace]
  omega

theorem Remaining.refreshBound (h : Remaining T S txs steps) {c : Canonical}
    (himmediate : c.immediate = txs.map RawTx.canonical)
    (hdeadline : c.deadlineRefresh.newDeadline = S.newDeadline) {y : RefreshStep} (hy : y ∈ steps) :
    Recovery.refreshBound T.env.keccak256 c y = true := by
  obtain ⟨k,t,u,ht,hu,htaken⟩ := h.refreshed y hy
  obtain ⟨hplace,hhash,hword,-⟩ := htaken.moved
  have hfind : (c.immediate.find? fun t => t.originalIndex = y.originalIndex) =
      some u.canonical := by
    rw [himmediate,find_canonical,hplace,(h.place ht hu).1,h.find hu,Option.map_some]
  rw [Recovery.refreshBound,hfind]
  have hafter : deadlineWord u.canonical.data y.wordOffsetBytes =
      some c.deadlineRefresh.newDeadline := by
    rw [hdeadline]
    exact hword.after
  exact Bool.and_eq_true_iff.2 ⟨decide_eq_true hhash.symm,decide_eq_true hafter⟩

theorem GeneratedFrom.packaged (h : GeneratedFrom T S g txs steps e) (noDuplicateKeys : Bool)
    (hdigest : T.env.digestOf g.authorization ≠ []) :
    Packaged T.env (g.inputs T S noDuplicateKeys) where
  errors := h.errors
  ordered := by
    simp only [Generated.inputs,h.packet]
    refine ⟨h.remaining.places,h.remaining.nonces,fun u hu => ?_⟩
    obtain ⟨k,hk⟩ := List.getElem?_of_mem hu
    have hlt : k < S.src6.length := by
      rw [h.remaining.source,← h.remaining.length]
      exact (List.getElem?_eq_some_iff.1 hk).1
    rw [(h.remaining.step k _ u (List.getElem?_eq_getElem hlt) hk).2.1]
    rfl
  object := h.object
  digest_ne_nil := hdigest
  packetDigest := by
    simp only [Generated.inputs,h.packet]
    rfl
  policyDigest := by
    simp only [Generated.inputs,h.policy]
  executionDigest := by
    have himmediate : g.authorization.immediate = txs.map RawTx.canonical := by
      rw [h.object,h.packet]
      rfl
    have hexecution : g.packet.header.remainingExecutionDigest =
        T.executionDigest (txs.map RawTx.signable) := by
      rw [h.packet]
      rfl
    simp only [Generated.inputs,himmediate,hexecution]
    exact congrArg T.executionDigest (map_canonical _ _)
  refreshed y hy := by
    have hsteps : g.packet.header.deadlineRefresh.steps = steps := by
      rw [h.packet]
      rfl
    have hobject : g.authorization.immediate = txs.map RawTx.canonical ∧
        g.authorization.deadlineRefresh.newDeadline = S.newDeadline := by
      rw [h.object,h.packet]
      exact ⟨rfl,rfl⟩
    exact h.remaining.refreshBound hobject.1 hobject.2 (hsteps ▸ hy)

/-! ## Exposure -/

theorem sum_ceilings_le (txs : List RawTx) (h : ∀ u ∈ txs,
    u.gasCeilings.maxGasCostCeilingWei = u.gasCeilings.reviewedMaxGasCostWei*5/4) :
    (txs.map fun u => u.gasCeilings.maxGasCostCeilingWei).sum ≤
      (txs.map fun u => u.gasCeilings.reviewedMaxGasCostWei).sum*5/4 := by
  induction txs with
  | nil => exact Nat.le_refl _
  | cons u txs ih =>
    have hu := h u List.mem_cons_self
    have htxs := ih fun v hv => h v (List.mem_cons_of_mem _ hv)
    simp only [List.map_cons,List.sum_cons]
    omega

theorem exposure_ok (h : exposure S txs = .ok e) :
    (txs.map fun u => u.gasCeilings.reviewedMaxGasCostWei).sum*5/4 ≤ e.remainingMaxGasWei ∧
      e.aggregateWei*S.selectedMicroUsd/10^18 ≤ 130000000 := by
  simp only [exposure,bind_eq_ok,expect_eq_ok,exists_const,pure_eq_ok] at h
  obtain ⟨-,hcap,rfl⟩ := h
  exact ⟨Nat.le_add_right _ _,hcap⟩

/-- The exposure of a generated packet has room for all that its steps may cost. -/
theorem GeneratedFrom.covers (h : GeneratedFrom T S g txs steps e) :
    g.packet.committedWei+g.packet.maxGasWei ≤ g.packet.aggregateWei ∧
      g.packet.maxGasWei ≤ g.packet.remainingMaxGasWei ∧
      g.packet.aggregateWei*S.selectedMicroUsd/10^18 ≤ 130000000 := by
  obtain ⟨hgas,hcap⟩ := exposure_ok h.exposed
  have hb := build_ok h.errors
  have hceilings := sum_ceilings_le txs fun u hu => by
    obtain ⟨k,hk⟩ := List.getElem?_of_mem hu
    have hlt : k < S.src6.length := by
      rw [h.remaining.source,← h.remaining.length]
      exact (List.getElem?_eq_some_iff.1 hk).1
    rw [(h.remaining.step k _ u (List.getElem?_eq_getElem hlt) hk).2.1]
    rfl
  have htxs : g.packet.maxGasWei = (txs.map fun u => u.gasCeilings.maxGasCostCeilingWei).sum := by
    rw [h.packet]
    rfl
  have hmax : g.packet.remainingMaxGasWei = e.remainingMaxGasWei := by
    rw [h.packet]
    rfl
  have haggregate : g.packet.aggregateWei = e.aggregateWei := by
    rw [h.packet]
    rfl
  have hexposure := hb.exposure
  have hrealized := hb.realized
  have hle : g.packet.maxGasWei ≤ g.packet.remainingMaxGasWei := by
    rw [htxs,hmax]
    exact hceilings.trans hgas
  refine ⟨?_,hle,by rw [haggregate]; exact hcap⟩
  unfold Packet.committedWei
  omega

theorem generated_binds_iff (hdigest : ∀ c, T.env.digestOf c ≠ []) (h : generate T S = .ok g)
    (noDuplicateKeys : Bool) :
    (∃ R, bindAndVerifyPacket T.env (g.inputs T S noDuplicateKeys) = .ok R) ↔
      S.anchorFile.priors = boundPriors ∧
        S.policy.wallets.tester ≠ S.policy.wallets.deployer ∧ noDuplicateKeys = true := by
  obtain ⟨txs,steps,e,hg⟩ := generate_ok h
  have hiff := (hg.packaged noDuplicateKeys (hdigest _)).binds_iff
  have hpriors : g.packet.header.priors = S.anchorFile.priors := by
    rw [hg.packet]
    rfl
  have hwallets : g.policy.wallets = S.policy.wallets := by
    rw [hg.policy]
  simpa only [Generated.inputs,hpriors,hwallets] using hiff

/-- The operator binds a generated packet if it renews the packets that the operator knows, its
tester is not its deployer, and no key is repeated in its text.  Then what the six steps may cost,
with the principal and the gas already spent, is within the cap at the selected price, and at
every price at which the exposure gate lets a step be sent. -/
theorem generated_binds (hdigest : ∀ c, T.env.digestOf c ≠ []) (h : generate T S = .ok g)
    (noDuplicateKeys : Bool) :
    ((∃ R, bindAndVerifyPacket T.env (g.inputs T S noDuplicateKeys) = .ok R) ↔
      S.anchorFile.priors = boundPriors ∧
        S.policy.wallets.tester ≠ S.policy.wallets.deployer ∧ noDuplicateKeys = true) ∧
      ∀ R, bindAndVerifyPacket T.env (g.inputs T S noDuplicateKeys) = .ok R →
        (g.packet.committedWei+R.maxGasWei)*S.selectedMicroUsd/10^18 ≤ 130000000 ∧
          R.Caps (g.packet.committedWei+R.maxGasWei) := by
  obtain ⟨txs,steps,e,hg⟩ := generate_ok h
  refine ⟨generated_binds_iff hdigest h noDuplicateKeys,fun R hR => ?_⟩
  obtain ⟨haggregate,hgas,hcap⟩ := hg.covers
  have hmax := bound_maxGasWei hR
  refine ⟨?_,(recovery_caps_iff hR).2 ?_⟩
  · rw [hmax]
    exact (Nat.div_le_div_right (Nat.mul_le_mul_right _ haggregate)).trans hcap
  · rw [Packet.DeclaresGas]
    exact Slack.of_le (Nat.add_le_add_left hgas _)

end Generated

theorem sampleSources_binds : ∃ g R, generate sampleTools sampleSources = .ok g ∧
    bindAndVerifyPacket sampleTools.env (g.inputs sampleTools sampleSources true) = .ok R ∧
    (g.packet.committedWei+R.maxGasWei)*sampleSources.selectedMicroUsd/10^18 ≤ 130000000 ∧
    R.Caps (g.packet.committedWei+R.maxGasWei) ∧
    ¬∃ R, bindAndVerifyPacket sampleTools.env (g.inputs sampleTools sampleSources false) = .ok R := by
  obtain ⟨g,hg⟩ := sampleSources_generate
  obtain ⟨hbinds,hcaps⟩ := generated_binds (fun _ => List.cons_ne_nil _ _) hg true
  obtain ⟨R,hR⟩ := hbinds.2 ⟨by decide +kernel,by decide +kernel,rfl⟩
  obtain ⟨hcost,hexposure⟩ := hcaps R hR
  refine ⟨g,R,hg,hR,hcost,hexposure,fun hrepeated => ?_⟩
  obtain ⟨-,-,hfalse⟩ := (generated_binds (fun _ => List.cons_ne_nil _ _) hg false).1.1 hrepeated
  cases hfalse

end Recovery
end Canary
end BpsProtocol
