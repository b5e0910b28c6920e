import BpsProtocol.Eligibility
import BpsProtocol.Lib.Threads

/-! The dashboard's account, verdict and eligibility.
The account comes from the wallet at any time.  Verdict and eligibility are two fields of
the page, which the calls of `signDeclaration` set as their answers arrive; nothing resets
them. -/
namespace BpsProtocol
namespace Dashboard

open HexText Eligibility Async

/-- What the page takes from its libraries: the signer recovery, and the hash of the
demonstration document. -/
structure Library where
  recoverTypedDataAddress : Recover
  documentHash : Text

structure DeclarationConfig where
  domain : TypedDataDomain
  documentVersion : ℤ
  documentHash : Text

def demoDeclarationConfig (L : Library) : DeclarationConfig :=
  { domain :=
      { name := "BPS Restricted Beta Declarations"
        version := "1"
        chainId := ROBINHOOD_CHAIN_ID }
    documentVersion := 1
    documentHash := L.documentHash }

/-- The policy that `signDeclaration` verifies against. -/
def policy (L : Library) : DeclarationPolicy :=
  { currentDocumentVersion := (demoDeclarationConfig L).documentVersion
    currentDocumentHash := (demoDeclarationConfig L).documentHash
    nowSec := 1000000000
    usedNonces := [] }

/-! ## What is awaited -/

inductive Query
  | signTypedData (domain : TypedDataDomain) (message : DeclarationMessage)
  | recoverTypedDataAddress (domain : TypedDataDomain) (message : DeclarationMessage)
      (signature : Text)
  | verifyDeclaration (signed : SignedDeclaration) (policy : DeclarationPolicy)
  | check (account : Text)

abbrev Answer : Query → Type
  | .signTypedData _ _ => Text
  | .recoverTypedDataAddress _ _ _ => Text
  | .verifyDeclaration _ _ => DeclarationVerdict
  | .check _ => EligibilityResult

abbrev Awaited : Interface := ⟨Query,Answer⟩

/-- A rejected promise, which nothing catches. -/
inductive Thrown
  | thrown
  deriving DecidableEq

/-- The wallet and the eligibility service answer as they like; the rest is computed. -/
def Honest (L : Library) : (q : Query) → Except Thrown (Answer q) → Prop
  | .recoverTypedDataAddress domain message signature, r =>
    r = (L.recoverTypedDataAddress domain message signature).elim (.error .thrown) .ok
  | .verifyDeclaration signed policy, r =>
    r = .ok (verifyDeclaration L.recoverTypedDataAddress signed policy)
  | _, _ => True

/-- What happened: the wallet signed, a declaration was verified, the service answered. -/
inductive Fact
  | signed (message : DeclarationMessage) (signature : Text)
  | verified (signed : SignedDeclaration) (verdict : DeclarationVerdict)
  | checked (account : Text) (result : EligibilityResult)

def record : (q : Query) → Except Thrown (Answer q) → List Fact
  | .signTypedData _ message, .ok signature => [.signed message signature]
  | .verifyDeclaration signed _, .ok v => [.verified signed v]
  | .check account, .ok result => [.checked account result]
  | _, _ => []

/-! ## The page -/

/-- The two pieces of state that the gate reads. -/
structure Page where
  verdict : Option DeclarationVerdict
  eligibility : EligibilityResult

def Page.initial : Page :=
  { verdict := none
    eligibility := .unknown }

abbrev Script (α : Type) := Prog Awaited Page Unit Thrown α

def setVerdict (v : DeclarationVerdict) : Script Unit :=
  Prog.modify fun p => { p with verdict := some v }

def setEligibility (result : EligibilityResult) : Script Unit :=
  Prog.modify fun p => { p with eligibility := result }

def await (q : Query) : Script (Answer q) := Prog.await (I := Awaited) q

def declaration (L : Library) (address : Text) : DeclarationMessage :=
  { wallet := address
    documentHash := (demoDeclarationConfig L).documentHash
    documentVersion := (demoDeclarationConfig L).documentVersion
    nonce := 1
    expiry := 4000000000 }

/-- The callback is made anew for each address and keeps the one that it was made for. -/
def signDeclaration (L : Library) : (address : Option Text) → Script Unit
  | none => pure ()
  | some address => do
    let message := declaration L address
    let signature ← await (.signTypedData (demoDeclarationConfig L).domain message)
    let recovered ← await
      (.recoverTypedDataAddress (demoDeclarationConfig L).domain message signature)
    if toLowerCase recovered ≠ toLowerCase address then setVerdict (.rejected .wrongSigner)
    else do
      let v ← await (.verifyDeclaration ⟨message,signature,ROBINHOOD_CHAIN_ID⟩ (policy L))
      setVerdict v
      let result ← await (.check address)
      setEligibility result

/-! ## Events -/

/-- `useAccount` and `useChainId` -/
structure Account where
  address : Option Text
  isConnected : Bool
  chainId : ℕ

structure State where
  account : Account
  script : Threads Awaited Page Thrown Unit (Option Text) Fact

/-- The page as it is mounted, before any account is known. -/
def initial (chainId : ℕ) : State :=
  { account :=
      { address := none
        isConnected := false
        chainId := chainId }
    script := .start .initial }

inductive Event (L : Library)
  | connecting (address : Option Text)
  | connect (address : Text) (chainId : ℕ)
  | disconnect
  | switchAccount (address : Text)
  | switchChain (chainId : ℕ)
  | signDeclaration (job : ℕ)
  | answer (job : ℕ) (o : Oracle Awaited Thrown (Honest L))

def act (L : Library) (s : State) (a : Threads.Action Awaited Thrown (Option Text) (Honest L)) :
    Except Refused State := do
  let script ← s.script.exec record (signDeclaration L) a
  return { s with script := script }

def exec (L : Library) (s : State) : Event L → Except Refused State
  | .connecting address =>
    .ok { s with account := { s.account with address := address,isConnected := false } }
  | .connect address chainId =>
    .ok { s with account := { address := some address,isConnected := true,chainId := chainId } }
  | .disconnect =>
    .ok { s with account := { s.account with address := none,isConnected := false } }
  | .switchAccount address =>
    if s.account.isConnected then
      .ok { s with account := { s.account with address := some address } }
    else .error .refused
  | .switchChain chainId => .ok { s with account := { s.account with chainId := chainId } }
  | .signDeclaration job => act L s (.call job s.account.address)
  | .answer job o => act L s (.answer job o)

def wallet (a : Account) : WalletContext :=
  { address := a.address
    chainId := if a.isConnected then some a.chainId else none }

def eligState (s : State) : EligibilityState :=
  deriveEligibilityState (wallet s.account) s.script.memory.verdict s.script.memory.eligibility

/-- The write gate of the panels. -/
def eligible (s : State) : Bool := eligibilityWriteGate (eligState s)

/-! ## What the gate stands for -/

/-- The address signed a declaration of its own, and it was accepted. -/
def Declared (L : Library) (log : List Fact) (address : Text) : Prop :=
  ∃ signed, SameAddress signed.message.wallet address ∧
    Fact.signed signed.message signed.signature ∈ log ∧
    SignedBy L.recoverTypedDataAddress signed.message signed.signature address ∧
    Fact.verified signed .ok ∈ log

/-- The service answered `eligible` for the address. -/
def Vouched (log : List Fact) (address : Text) : Prop :=
  ∃ account, SameAddress account address ∧ Fact.checked account .eligible ∈ log

def Cleared (L : Library) (log : List Fact) (address : Text) : Prop :=
  Declared L log address ∧ Vouched log address

def Fact.answer : Fact → Option (Text × EligibilityResult)
  | .checked account result => some (account,result)
  | _ => none

/-- The latest answer of the eligibility service, and for whom it was. -/
def lastChecked (log : List Fact) : Option (Text × EligibilityResult) :=
  (log.filterMap Fact.answer).getLast?

/-- The address that the event brings to the page. -/
def Event.brings {L : Library} : Event L → Option Text
  | .connecting address => address
  | .connect address _ => some address
  | .switchAccount address => some address
  | _ => none

/-- No call of another address awaits an answer, and the service did not last answer
`eligible` for another one. -/
structure Alone (s : State) (address : Text) : Prop where
  calls : ∀ job c a, s.script.calls job = some c → c.tag = some a → SameAddress a address
  answers : ∀ a, lastChecked s.script.log = some (a,.eligible) → SameAddress a address

/-- An address comes to the page only alone, or once it is cleared itself. -/
def Undisturbed (L : Library) (s : State) (e : Event L) : Prop :=
  ∀ address, e.brings = some address → Cleared L s.script.log address ∨ Alone s address

/-! ## What the calls uphold -/

theorem Declared.mono {L : Library} {log log' : List Fact} {address : Text}
    (h : Declared L log address) (hlog : log <+: log') : Declared L log' address := by
  obtain ⟨signed,hwallet,hsigned,hby,hverified⟩ := h
  exact ⟨signed,hwallet,hlog.subset hsigned,hby,hlog.subset hverified⟩

theorem Cleared.mono {L : Library} {log log' : List Fact} {address : Text}
    (h : Cleared L log address) (hlog : log <+: log') : Cleared L log' address := by
  obtain ⟨hd,account,hsame,hchecked⟩ := h
  exact ⟨hd.mono hlog,account,hsame,hlog.subset hchecked⟩

theorem Declared.of_same {L : Library} {log : List Fact} {a b : Text} (h : Declared L log a)
    (hab : SameAddress a b) : Declared L log b := by
  obtain ⟨signed,hwallet,hsigned,⟨signer,hrecover,hsigner⟩,hverified⟩ := h
  exact ⟨signed,hwallet.trans hab,hsigned,⟨signer,hrecover,hsigner.trans hab⟩,hverified⟩

theorem lastChecked_append_silent {log : List Fact} {f : Fact} (h : f.answer = none) :
    lastChecked (log ++ [f]) = lastChecked log := by
  simp [lastChecked,h]

theorem lastChecked_append_checked (log : List Fact) (account : Text)
    (result : EligibilityResult) :
    lastChecked (log ++ [.checked account result]) = some (account,result) := by
  simp [lastChecked,Fact.answer]

theorem mem_of_lastChecked {log : List Fact} {account : Text} {result : EligibilityResult}
    (h : lastChecked log = some (account,result)) : Fact.checked account result ∈ log := by
  have hmem := List.mem_of_getLast? h
  obtain ⟨f,hf,hanswer⟩ := List.mem_filterMap.mp hmem
  cases f with
  | checked a r =>
    cases hanswer
    exact hf
  | signed m t => cases hanswer
  | verified m v => cases hanswer

/-- An eligible answer stands only if it is the latest one, and the service is asked only
for addresses whose declaration was accepted. -/
structure Sound (L : Library) (p : Page) (log : List Fact) : Prop where
  standing : p.eligibility = .eligible → ∃ a, lastChecked log = some (a,.eligible)
  declared : ∀ a r, Fact.checked a r ∈ log → Declared L log a

namespace Sound

variable {L : Library} {p : Page} {log : List Fact}

theorem append_silent (h : Sound L p log) {f : Fact} (hf : f.answer = none) :
    Sound L p (log ++ [f]) where
  standing hp := by
    rw [lastChecked_append_silent hf]
    exact h.standing hp
  declared a r hmem := by
    rw [List.mem_append,List.mem_singleton] at hmem
    cases hmem with
    | inl hold => exact (h.declared a r hold).mono (List.prefix_append _ _)
    | inr hnew =>
      rw [← hnew] at hf
      cases hf

/-- The service's answer for a declared address is recorded and then stands. -/
theorem append_checked (h : Sound L p log) {address : Text} (hd : Declared L log address)
    (result : EligibilityResult) :
    Sound L { p with eligibility := result } (log ++ [.checked address result]) where
  standing hp := by
    rw [lastChecked_append_checked]
    exact ⟨address,by rw [show result = .eligible from hp]⟩
  declared a r hmem := by
    rw [List.mem_append,List.mem_singleton] at hmem
    cases hmem with
    | inl hold => exact (h.declared a r hold).mono (List.prefix_append _ _)
    | inr hnew =>
      cases hnew
      exact hd.mono (List.prefix_append _ _)

theorem setVerdict (h : Sound L p log) (v : Option DeclarationVerdict) :
    Sound L { p with verdict := v } log := ⟨h.standing,h.declared⟩

end Sound

/-- A recovery that is not a rejection is the library's. -/
theorem recover_of_honest {L : Library} {domain : TypedDataDomain} {message : DeclarationMessage}
    {signature recovered : Text}
    (h : Honest L (.recoverTypedDataAddress domain message signature) (.ok recovered)) :
    L.recoverTypedDataAddress domain message signature = some recovered := by
  change _ = Option.elim _ _ _ at h
  cases hr : L.recoverTypedDataAddress domain message signature with
  | none =>
    rw [hr] at h
    cases h
  | some a =>
    rw [hr] at h
    cases h
    rfl

/-- What the call has itself found to be signed by the account passes the verification. -/
theorem verifyDeclaration_declaration {L : Library} {address signature : Text}
    (h : SignedBy L.recoverTypedDataAddress (declaration L address) signature address) :
    verifyDeclaration L.recoverTypedDataAddress
      ⟨declaration L address,signature,ROBINHOOD_CHAIN_ID⟩ (policy L) = .ok :=
  have hexpiry : (policy L).nowSec < (declaration L address).expiry := by
    change (1000000000 : ℤ) < 4000000000
    norm_num
  verifyDeclaration_eq_ok.mpr ⟨rfl,rfl,rfl,hexpiry,List.not_mem_nil,h⟩

@[simp] theorem record_error (q : Query) (e : Thrown) : record q (.error e) = [] := by
  cases q <;> rfl

theorem Sound.append_error {L : Library} {p : Page} {log : List Fact} (h : Sound L p log)
    (q : Query) (e : Thrown) : Sound L p (log ++ record q (.error e)) := by
  rwa [record_error,List.append_nil]

/-- The last two awaits: the verdict is `ok`, so the service is asked for a declared
address. -/
theorem verified_upholds {L : Library} {address signature : Text} {p : Page} {log : List Fact}
    (h : Sound L p log)
    (hsigned : Fact.signed (declaration L address) signature ∈ log)
    (hby : SignedBy L.recoverTypedDataAddress (declaration L address) signature address) :
    Upholds record (Honest L) (Sound L)
      (await (.verifyDeclaration ⟨declaration L address,signature,ROBINHOOD_CHAIN_ID⟩ (policy L))
        >>= fun v => setVerdict v >>= fun _ => await (.check address) >>= setEligibility) p log := by
  apply Upholds.await_bind h
  · intro p₁ l₁ v h₁ hl₁ hv
    cases Except.ok.inj (show Except.ok v = _ from hv)
    rw [verifyDeclaration_declaration hby]
    have hd : Declared L (l₁ ++ [.verified
        ⟨declaration L address,signature,ROBINHOOD_CHAIN_ID⟩ .ok]) address :=
      ⟨⟨declaration L address,signature,ROBINHOOD_CHAIN_ID⟩,SameAddress.refl address,
        List.mem_append_left _ (hl₁.subset hsigned),hby,
        List.mem_append_right _ (List.mem_singleton.mpr rfl)⟩
    apply Upholds.modify_bind
    apply Upholds.await_bind ((h₁.append_silent rfl).setVerdict (some .ok))
    · intro p₂ l₂ result h₂ hl₂ _
      exact h₂.append_checked (hd.mono hl₂) result
    · exact fun _ _ e h _ => h.append_error _ e
  · exact fun _ _ e h _ => h.append_error _ e

theorem signDeclaration_upholds (L : Library) (address : Option Text) {p : Page}
    {log : List Fact} (h : Sound L p log) :
    Upholds record (Honest L) (Sound L) (signDeclaration L address) p log := by
  cases address with
  | none => exact h
  | some address =>
    apply Upholds.await_bind h
    · intro p₁ l₁ signature h₁ _ _
      apply Upholds.await_bind (h₁.append_silent rfl)
      · intro p₂ l₂ recovered h₂ hl₂ hr
        rw [show record _ _ = [] from rfl,List.append_nil]
        split
        · exact h₂.setVerdict (some (.rejected .wrongSigner))
        · rename_i hsame
          apply verified_upholds h₂
          · exact hl₂.subset (List.mem_append_right _ (List.mem_singleton.mpr rfl))
          · exact ⟨recovered,recover_of_honest hr,not_not.mp hsame⟩
      · exact fun _ _ e h _ => h.append_error _ e
    · exact fun _ _ e h _ => h.append_error _ e

/-- A call asks the service for the address that it was started with. -/
def AsksFor (address : Option Text) : Query → Prop
  | .check account => address = some account
  | _ => True

theorem signDeclaration_asks (L : Library) (address : Option Text) :
    Asks (AsksFor address) (signDeclaration L address) := by
  cases address with
  | none => trivial
  | some address =>
    have hawait : ∀ q, AsksFor (some address) q →
        Asks (AsksFor (some address)) (await q) := fun q hq => ⟨hq,fun _ => trivial⟩
    have hmodify : ∀ f, Asks (AsksFor (some address)) (Prog.modify f : Script Unit) :=
      fun f => trivial
    apply Asks.bind (hawait (.signTypedData _ _) trivial)
    intro signature
    apply Asks.bind (hawait (.recoverTypedDataAddress _ _ _) trivial)
    intro recovered
    split
    · exact hmodify _
    · apply Asks.bind (hawait (.verifyDeclaration _ _) trivial)
      intro v
      apply Asks.bind (hmodify _)
      intro _
      exact (hawait (.check address) rfl).bind fun result => hmodify _

/-! ## Undisturbed runs -/

/-- An answer is the service's and becomes the latest one, or leaves the latest one. -/
theorem lastChecked_record (log : List Fact) (q : Query) (r : Except Thrown (Answer q)) :
    (∃ account result, q = .check account ∧
      lastChecked (log ++ record q r) = some (account,result)) ∨
      lastChecked (log ++ record q r) = lastChecked log := by
  cases r with
  | error e => exact .inr (by rw [record_error,List.append_nil])
  | ok a =>
    cases q with
    | check account => exact .inl ⟨account,a,rfl,lastChecked_append_checked log account a⟩
    | signTypedData domain message => exact .inr (lastChecked_append_silent rfl)
    | verifyDeclaration signed policy => exact .inr (lastChecked_append_silent rfl)
    | recoverTypedDataAddress domain message signature =>
      exact .inr (congrArg lastChecked (List.append_nil log))

/-- The account of the page is cleared, or whatever runs or was last answered `eligible` is
its own. -/
structure Following (L : Library) (s : State) : Prop where
  valid : Threads.Valid record (Honest L) (Sound L) AsksFor s.script
  account : ∀ b, s.account.address = some b → Cleared L s.script.log b ∨ Alone s b

namespace Following

variable {L : Library} {s s' : State}

theorem initial (chainId : ℕ) : Following L (initial chainId) where
  valid := by
    apply Threads.Valid.start
    exact
      { standing := fun h => by cases h
        declared := fun _ _ h => absurd h List.not_mem_nil }
  account _ h := by cases h

theorem setAccount (h : Following L s) {account : Account}
    (hnew : ∀ b, account.address = some b → Cleared L s.script.log b ∨ Alone s b) :
    Following L { s with account := account } where
  valid := h.valid
  account b hb :=
    (hnew b hb).imp_right fun halone => ⟨halone.calls,halone.answers⟩

/-- What runs on the page beside an address that is alone is its own again. -/
theorem alone_act (h : Following L s) {b : Text} (hb : s.account.address = some b)
    (halone : Alone s b) {a : Threads.Action Awaited Thrown (Option Text) (Honest L)}
    (ha : ∀ job tag, a = .call job tag → tag = s.account.address)
    {script : Threads Awaited Page Thrown Unit (Option Text) Fact}
    (hscript : s.script.exec record (signDeclaration L) a = .ok script) :
    Alone { s with script := script } b := by
  refine ⟨fun job c x hc hx => ?_,fun x hlast => ?_⟩
  · cases Threads.exec_calls hscript hc with
    | inl hcall =>
      obtain ⟨n,hcall⟩ := hcall
      have htag : some x = some b := hx.symm.trans ((ha n c.tag hcall).trans hb)
      cases htag
      exact SameAddress.refl _
    | inr hold =>
      obtain ⟨m,c',hc',htag⟩ := hold
      exact halone.calls m c' x hc' (htag.trans hx)
  · cases Threads.exec_log hscript with
    | inl hlog =>
      rw [hlog] at hlast
      exact halone.answers x hlast
    | inr hanswer =>
      obtain ⟨job,c,r,hc,-,hlog⟩ := hanswer
      rw [hlog] at hlast
      cases lastChecked_record s.script.log c.wait.query r with
      | inl hchecked =>
        obtain ⟨account,result,hq,hlast'⟩ := hchecked
        have hasks := (h.valid.asks job c hc).1
        rw [hq] at hasks
        rw [hlast'] at hlast
        cases hlast
        exact halone.calls job c x hc hasks
      | inr hsame =>
        rw [hsame] at hlast
        exact halone.answers x hlast

theorem act (h : Following L s) {a : Threads.Action Awaited Thrown (Option Text) (Honest L)}
    (ha : ∀ job tag, a = .call job tag → tag = s.account.address)
    (hact : act L s a = .ok s') : Following L s' := by
  unfold Dashboard.act at hact
  cases hscript : s.script.exec record (signDeclaration L) a with
  | error e =>
    rw [hscript] at hact
    cases hact
  | ok script =>
    rw [hscript] at hact
    cases hact
    refine
      { valid := h.valid.exec (fun tag _ _ => signDeclaration_upholds L tag)
          (signDeclaration_asks L) hscript
        account := fun b hb => ?_ }
    cases h.account b hb with
    | inl hcleared => exact .inl (hcleared.mono (Threads.exec_prefix hscript))
    | inr halone => exact .inr (h.alone_act hb halone ha hscript)

theorem exec (h : Following L s) {e : Event L} (he : Undisturbed L s e)
    (hexec : exec L s e = .ok s') : Following L s' := by
  cases e with
  | connecting address =>
    cases hexec
    exact h.setAccount he
  | connect address chainId =>
    cases hexec
    exact h.setAccount he
  | disconnect =>
    cases hexec
    exact h.setAccount fun b hb => by cases hb
  | switchAccount address =>
    simp only [Dashboard.exec] at hexec
    split at hexec
    · cases hexec
      exact h.setAccount he
    · cases hexec
  | switchChain chainId =>
    cases hexec
    exact h.setAccount h.account
  | signDeclaration job =>
    apply h.act _ hexec
    intro n tag heq
    cases heq
    rfl
  | answer job o =>
    apply h.act _ hexec
    intro n tag heq
    cases heq

/-- Behind an open gate stands the page's own account: the standing answer is the latest
one, which was given for it. -/
theorem gate (h : Following L s) (hopen : eligible s = true) :
    ∃ b, s.account.address = some b ∧ Cleared L s.script.log b := by
  have hstate := deriveEligibilityState_eq_eligible.mp (gate_eq_true.mp hopen)
  obtain ⟨⟨b,hb⟩,-,-,heligible⟩ := hstate
  cases h.account b hb with
  | inl hcleared => exact ⟨b,hb,hcleared⟩
  | inr halone =>
    obtain ⟨a,hlast⟩ := h.valid.holds.standing heligible
    have hab : SameAddress a b := halone.answers a hlast
    have hmem := mem_of_lastChecked hlast
    have hd := h.valid.holds.declared a .eligible hmem
    exact ⟨b,hb,hd.of_same hab,a,hab,hmem⟩

end Following

/-- In a run in which every address comes undisturbed, the gate is open only for an account
that itself signed an accepted declaration and for which the service answered `eligible`. -/
theorem gate_follows_account (L : Library) (chainId : ℕ) (es : List (Event L))
    (h : Machine.Throughout (exec L) (Undisturbed L) (initial chainId) es)
    (hopen : eligible (Machine.run (exec L) (initial chainId) es) = true) :
    ∃ address, (Machine.run (exec L) (initial chainId) es).account.address = some address ∧
      Cleared L (Machine.run (exec L) (initial chainId) es).script.log address :=
  (Machine.run_preserves_throughout (fun _ _ _ hs he hexec => hs.exec he hexec)
    (Following.initial chainId) h).gate hopen

/-! ## A declared account and the one after it -/

def sampleAccount : Text := "0xD9d99859BB8C504daf3A3235a5C73DE4047a0f8B".toList

def otherAccount : Text := "0x000000000000000000000000000000000000b0b0".toList

def sampleSignature : Text := "0x5161b".toList

/-- One signature, of the sample account. -/
def sample : Library :=
  { recoverTypedDataAddress := fun _ message signature =>
      if message.wallet = sampleAccount ∧ signature = sampleSignature then some sampleAccount
      else none
    documentHash := "0xd0c".toList }

/-- The wallet gives that signature and the service finds every account eligible. -/
def sampleOracle : Oracle Awaited Thrown (Honest sample) where
  answer
    | .signTypedData _ _ => .ok sampleSignature
    | .recoverTypedDataAddress domain message signature =>
      (sample.recoverTypedDataAddress domain message signature).elim (.error .thrown) .ok
    | .verifyDeclaration signed policy =>
      .ok (verifyDeclaration sample.recoverTypedDataAddress signed policy)
    | .check _ => .ok .eligible
  isHonest q := by
    cases q with
    | signTypedData domain message => trivial
    | recoverTypedDataAddress domain message signature => exact rfl
    | verifyDeclaration signed policy => exact rfl
    | check account => trivial

/-- The account connects, signs its declaration and is found eligible. -/
def sampleRun : List (Event sample) :=
  [.connect sampleAccount ROBINHOOD_CHAIN_ID,.signDeclaration 0,.answer 0 sampleOracle,
    .answer 0 sampleOracle,.answer 0 sampleOracle,.answer 0 sampleOracle]

theorem Undisturbed.of_brings_none {L : Library} {s : State} {e : Event L}
    (h : e.brings = none) : Undisturbed L s e := fun b hb => by
  rw [h] at hb
  cases hb

/-- Another account is there first, and the wallet switches before anything is signed. -/
def switchedRun : List (Event sample) :=
  [.connect otherAccount ROBINHOOD_CHAIN_ID,.switchAccount sampleAccount,.signDeclaration 0,
    .answer 0 sampleOracle,.answer 0 sampleOracle,.answer 0 sampleOracle,.answer 0 sampleOracle]

theorem switchedRun_undisturbed :
    Machine.Throughout (exec sample) (Undisturbed sample) (initial 1) switchedRun := by
  refine ⟨fun b _ => .inr ⟨fun _ _ _ h => ?_,fun _ h => ?_⟩,
    fun b _ => .inr ⟨fun _ _ _ h => ?_,fun _ h => ?_⟩,?_⟩
  · cases h
  · cases h
  · cases h
  · cases h
  · exact ⟨.of_brings_none rfl,.of_brings_none rfl,.of_brings_none rfl,.of_brings_none rfl,
      .of_brings_none rfl,trivial⟩

/-- The account that is found eligible leaves and comes back. -/
theorem returnedRun_undisturbed :
    Machine.Throughout (exec sample) (Undisturbed sample) (initial 1)
      (switchedRun ++ [.disconnect,.connect sampleAccount ROBINHOOD_CHAIN_ID]) := by
  have hrun := switchedRun_undisturbed
  obtain ⟨b,hb,hcleared⟩ := (Machine.run_preserves_throughout
    (fun _ _ _ hs he hexec => hs.exec he hexec) (Following.initial 1) hrun).gate
      (by decide +kernel)
  have hsame : b = sampleAccount := Option.some.inj (hb.symm.trans (by decide +kernel))
  obtain ⟨hconnect,hswitch,hsign,h1,h2,h3,h4,-⟩ := hrun
  refine ⟨hconnect,hswitch,hsign,h1,h2,h3,h4,.of_brings_none rfl,fun address haddress => ?_,trivial⟩
  obtain rfl : sampleAccount = address := Option.some.inj haddress
  rw [hsame] at hcleared
  exact .inl hcleared

theorem switchedRun_cleared :
    eligible (Machine.run (exec sample) (initial 1)
      (switchedRun ++ [.disconnect,.connect sampleAccount ROBINHOOD_CHAIN_ID])) = true ∧
    ∃ address, (Machine.run (exec sample) (initial 1) (switchedRun ++
        [.disconnect,.connect sampleAccount ROBINHOOD_CHAIN_ID])).account.address = some address ∧
      Cleared sample (Machine.run (exec sample) (initial 1) (switchedRun ++
        [.disconnect,.connect sampleAccount ROBINHOOD_CHAIN_ID])).script.log address :=
  have hopen : eligible (Machine.run (exec sample) (initial 1) (switchedRun ++
      [.disconnect,.connect sampleAccount ROBINHOOD_CHAIN_ID])) = true := by decide +kernel
  ⟨hopen,gate_follows_account sample 1 _ returnedRun_undisturbed hopen⟩

/-- The wallet then switches to an account that signed nothing, and the gate stays open. -/
theorem switched_not_cleared :
    ¬ ∀ (L : Library) (chainId : ℕ) (es : List (Event L)),
      eligible (Machine.run (exec L) (initial chainId) es) = true →
        ∃ address, (Machine.run (exec L) (initial chainId) es).account.address = some address ∧
          Cleared L (Machine.run (exec L) (initial chainId) es).script.log address := by
  intro h
  have hopen : eligible (Machine.run (exec sample) (initial 1)
      (sampleRun ++ [.switchAccount otherAccount])) = true := by decide +kernel
  obtain ⟨address,haddress,-,account,hsame,hchecked⟩ := h sample 1 _ hopen
  cases haddress
  have hmem : Fact.checked account .eligible ∈
      [Fact.signed (declaration sample sampleAccount) sampleSignature,
        .verified ⟨declaration sample sampleAccount,sampleSignature,ROBINHOOD_CHAIN_ID⟩ .ok,
        .checked sampleAccount .eligible] := hchecked
  simp only [List.mem_cons,reduceCtorEq,Fact.checked.injEq,and_true,false_or,List.not_mem_nil,
    or_false] at hmem
  rw [hmem] at hsame
  exact absurd hsame (by decide +kernel)

end Dashboard
end BpsProtocol
