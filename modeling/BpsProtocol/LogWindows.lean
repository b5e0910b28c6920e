import BpsProtocol.Lib.DecimalText
import BpsProtocol.Lib.Separated
import BpsProtocol.Lib.Windows
import BpsProtocol.SnapshotPipeline

/-! Log scans in windows: `getLogsChunked` of the dashboard and `scan` of the indexer's reader.
The two loops step differently, one by the chunk size with an exclusive end, the other by one
more than the chunk.  Both ask for windows that tile the interval, so that an RPC which is
faithful window by window is scanned without a loss and without a repetition. -/
namespace BpsProtocol
namespace LogWindows

open Async Windows HexText

variable {D E T : Type}

/-- A log; `data` is what a decoder reads. -/
structure RawLog (D : Type) where
  transactionHash : Option Text
  logIndex : Option ℕ
  blockNumber : Option ℤ
  data : D
  deriving DecidableEq

/-- `${l.transactionHash.toLowerCase()}:${l.logIndex}` -/
def logKey (transactionHash : Text) (logIndex : ℕ) : Text :=
  toLowerCase transactionHash ++ ':' :: Nat.toDigits 10 logIndex

/-- The loop of `dedupeLogs` with the keys it has seen. -/
def dedupeFrom (seen : List Text) : List (RawLog D) → List (RawLog D)
  | [] => []
  | l::logs =>
    match l.transactionHash,l.logIndex with
    | some transactionHash,some logIndex =>
      let key := logKey transactionHash logIndex
      if key ∈ seen then dedupeFrom seen logs else l::dedupeFrom (key::seen) logs
    | _,_ => l::dedupeFrom seen logs

def dedupeLogs (logs : List (RawLog D)) : List (RawLog D) := dedupeFrom [] logs

/-- The arguments of `client.getLogs`. -/
structure LogFilter where
  address : Text
  fromBlock : ℤ
  toBlock : ℤ
  deriving DecidableEq

def LogFilter.window (f : LogFilter) : Window := ⟨f.fromBlock,f.toBlock⟩

/-! ## The dashboard -/

inductive ReadError (E : Type)
  | rejected (reason : E)
  | readFailed (what : Text) (cause : ReadError E)

/-- The part of a public client that the dashboard's loop uses. -/
def Client (D : Type) : Interface := ⟨LogFilter,fun _ => List (RawLog D)⟩

structure ChunkedParams where
  address : Text
  fromBlock : ℤ
  headBlock : ℤ
  confirmations : ℤ
  chunkSize : ℤ

def ChunkedParams.safeHead (params : ChunkedParams) : ℤ := params.headBlock-params.confirmations

/-- The filter of the turn that begins at `start`. -/
def ChunkedParams.filter (params : ChunkedParams) (start : ℤ) : LogFilter where
  address := params.address
  fromBlock := start
  toBlock := if start+params.chunkSize-1 > params.safeHead then params.safeHead
    else start+params.chunkSize-1

/-- One turn of the loop of `getLogsChunked`. -/
def chunk (params : ChunkedParams) (start : ℤ) (all : List (RawLog D)) :
    Prog (Client D) Unit Unit (ReadError E) (List (RawLog D)) := do
  let answer : Except _ (List (RawLog D)) ←
    Prog.attempt (I := Client D) (params.filter start)
  match answer with
  | .error e =>
    Prog.throw (.readFailed ("getLogs ".toList ++ DecimalText.signed start ++ '-' ::
      DecimalText.signed (params.filter start).toBlock) e)
  | .ok logs => pure (all ++ logs)

/-- `getLogsChunked`, whose loop may take `fuel` turns. -/
def getLogsChunked (params : ChunkedParams) (fuel : ℕ) :
    Prog (Client D) Unit Unit (ReadError E) (Option (List (RawLog D))) :=
  if params.safeHead < params.fromBlock then pure (some [])
  else do
    let all ← forUpTo params.chunkSize params.safeHead (chunk params) fuel params.fromBlock []
    pure (all.map dedupeLogs)

/-! ## The indexer -/

inductive Endpoint
  | primary
  | logs
  deriving DecidableEq

inductive ReaderQuery
  | getChainId (endpoint : Endpoint)
  | getBlockHash (endpoint : Endpoint) (blockNumber : ℤ)
  | getLogs (endpoint : Endpoint) (filter : LogFilter)

/-- The endpoints that the reader asks. -/
def Rpc (D : Type) : Interface where
  Query := ReaderQuery
  Answer
    | .getChainId _ => ℤ
    | .getBlockHash _ _ => Text
    | .getLogs _ _ => List (RawLog D)

inductive ScanError (E : Type)
  | rejected (reason : E)
  | logsEndpointChainMismatch (primary logs : ℤ)
  | logsEndpointHashMismatch (pinBlock : ℤ) (primary logs : Text)
  | pendingLog

/-- The fields of `RpcChainReader`; without an endpoint of its own for logs, `logsClient` is
the primary one. -/
structure RpcChainReader where
  vault : Text
  pinBlock : ℤ
  logsClient : Endpoint

inductive EventName
  | lockCreated
  | lockWithdrawn
  deriving DecidableEq

/-- What `decodeEventLog` finds in a log of the vault. -/
structure Decoded where
  eventName : EventName
  account : Text
  lockId : ℤ

variable (decodeEventLog : D → Option Decoded)

def LOG_CHUNK : ℤ := 45000

/-- `assertLogsEndpointChain`; the memory holds `logsEndpointVerified`. -/
def assertLogsEndpointChain (R : RpcChainReader) :
    Prog (Rpc D) Bool Unit (ScanError E) Unit := do
  let verified ← Prog.get
  if verified then return ()
  let a : ℤ ← Prog.await (I := Rpc D) (.getChainId .primary)
  let b : ℤ ← Prog.await (I := Rpc D) (.getChainId R.logsClient)
  if a ≠ b then Prog.throw (.logsEndpointChainMismatch a b)
  else do
    if R.logsClient ≠ .primary then do
      let ph : Text ← Prog.await (I := Rpc D) (.getBlockHash .primary R.pinBlock)
      let lh : Text ← Prog.await (I := Rpc D) (.getBlockHash R.logsClient R.pinBlock)
      if toLowerCase ph ≠ toLowerCase lh then
        Prog.throw (.logsEndpointHashMismatch R.pinBlock ph lh)
      else Prog.modify fun _ => true
    else Prog.modify fun _ => true

/-- The loop over the logs of one window. -/
def collect (eventName : EventName) (map : Decoded → ℤ → ℕ → T) :
    List T → List (RawLog D) → Except (ScanError E) (List T)
  | out, [] => .ok out
  | out, log::logs =>
    match decodeEventLog log.data with
    | none => collect eventName map out logs
    | some decoded =>
      if decoded.eventName ≠ eventName then collect eventName map out logs
      else match log.blockNumber,log.logIndex with
        | some blockNumber,some logIndex =>
          collect eventName map (out ++ [map decoded blockNumber logIndex]) logs
        | _,_ => .error .pendingLog

/-- The filter of the turn of `scan` that begins at `start`. -/
def RpcChainReader.filter (R : RpcChainReader) (last start : ℤ) : LogFilter where
  address := R.vault
  fromBlock := start
  toBlock := if start+LOG_CHUNK > last then last else start+LOG_CHUNK

/-- One turn of the loop of `scan`. -/
def scanWindow (R : RpcChainReader) (last : ℤ) (eventName : EventName)
    (map : Decoded → ℤ → ℕ → T) (start : ℤ) (out : List T) :
    Prog (Rpc D) Bool Unit (ScanError E) (List T) := do
  let logs ← Prog.await (I := Rpc D) (.getLogs R.logsClient (R.filter last start))
  Prog.ofExcept (collect decodeEventLog eventName map out logs)

/-- `scan`, whose loop may take `fuel` turns. -/
def scan (R : RpcChainReader) (first last : ℤ) (eventName : EventName)
    (map : Decoded → ℤ → ℕ → T) (fuel : ℕ) :
    Prog (Rpc D) Bool Unit (ScanError E) (Option (List T)) := do
  assertLogsEndpointChain R
  forUpTo (LOG_CHUNK+1) last (scanWindow decodeEventLog R last eventName map) fuel first []

open SnapshotPipeline in
def lockCreated (R : RpcChainReader) (first last : ℤ) (fuel : ℕ) :
    Prog (Rpc D) Bool Unit (ScanError E) (Option (List LockCreatedRecord)) :=
  scan decodeEventLog R first last .lockCreated
    (fun a blockNumber logIndex => ⟨a.account,a.lockId,blockNumber,logIndex⟩) fuel

open SnapshotPipeline in
def lockWithdrawn (R : RpcChainReader) (first last : ℤ) (fuel : ℕ) :
    Prog (Rpc D) Bool Unit (ScanError E) (Option (List LockWithdrawnRecord)) :=
  scan decodeEventLog R first last .lockWithdrawn
    (fun a blockNumber logIndex => ⟨a.account,a.lockId,blockNumber,logIndex⟩) fuel

/-! ## What is deduplicated -/

/-- The transaction and the index of a log that has both. -/
def RawLog.id (l : RawLog D) : Option (Text × ℕ) :=
  match l.transactionHash,l.logIndex with
  | some transactionHash,some logIndex => some (toLowerCase transactionHash,logIndex)
  | _,_ => none

/-- The key that stands for a transaction and an index. -/
def idKey (k : Text × ℕ) : Text := k.1 ++ ':' :: Nat.toDigits 10 k.2

theorem idKey_injective : Function.Injective idKey := by
  intro k k' h
  have hcolon : ∀ n, ':' ∉ Nat.toDigits 10 n := fun n hm =>
    absurd (DecimalText.isDigit_toDigits _ hm) (by decide)
  obtain ⟨hhash,hindex⟩ := Separated.append_sep_inj (.inr ⟨hcolon _,hcolon _⟩) h
  exact Prod.ext hhash (DecimalText.toDigits_injective hindex)

variable {seen : List Text} {l : RawLog D} {logs : List (RawLog D)} {k : Text × ℕ}

theorem dedupeFrom_of_none (h : l.id = none) :
    dedupeFrom seen (l::logs) = l::dedupeFrom seen logs := by
  unfold RawLog.id at h
  rw [dedupeFrom]
  split at h
  · cases h
  · rfl

theorem dedupeFrom_of_some (h : l.id = some k) :
    dedupeFrom seen (l::logs) =
      if idKey k ∈ seen then dedupeFrom seen logs
      else l::dedupeFrom (idKey k::seen) logs := by
  unfold RawLog.id at h
  rw [dedupeFrom]
  split at h
  · cases h
    rfl
  · cases h

theorem dedupeFrom_subset : dedupeFrom seen logs ⊆ logs := by
  induction logs generalizing seen with
  | nil => exact List.Subset.refl _
  | cons l logs ih =>
    cases hid : l.id with
    | none =>
      rw [dedupeFrom_of_none hid]
      exact List.cons_subset_cons _ ih
    | some k =>
      rw [dedupeFrom_of_some hid]
      split
      · exact List.subset_cons_of_subset _ ih
      · exact List.cons_subset_cons _ ih

/-- The kept identities are those of the logs that were not seen before. -/
theorem mem_ids_dedupeFrom :
    k ∈ (dedupeFrom seen logs).filterMap RawLog.id ↔
      k ∈ logs.filterMap RawLog.id ∧ idKey k ∉ seen := by
  induction logs generalizing seen with
  | nil => simp [dedupeFrom]
  | cons l logs ih =>
    cases hid : l.id with
    | none => simp only [dedupeFrom_of_none hid,List.filterMap_cons_none hid,ih]
    | some k' =>
      rw [dedupeFrom_of_some hid,List.filterMap_cons_some hid]
      by_cases hk : k = k'
      · subst hk
        split
        · next hseen => simp [ih,hseen]
        · next hseen => simp [List.filterMap_cons_some hid,hseen]
      · split
        · simp [ih,hk]
        · have hne : idKey k ≠ idKey k' := fun h => hk (idKey_injective h)
          simp [List.filterMap_cons_some hid,ih,hk,hne]

theorem nodup_ids_dedupeFrom : ((dedupeFrom seen logs).filterMap RawLog.id).Nodup := by
  induction logs generalizing seen with
  | nil => exact List.nodup_nil
  | cons l logs ih =>
    cases hid : l.id with
    | none =>
      rw [dedupeFrom_of_none hid,List.filterMap_cons_none hid]
      exact ih
    | some k =>
      rw [dedupeFrom_of_some hid]
      split
      · exact ih
      · rw [List.filterMap_cons_some hid,List.nodup_cons]
        refine ⟨fun hm => ?_,ih⟩
        exact (mem_ids_dedupeFrom.1 hm).2 List.mem_cons_self

/-! ## What is requested -/

/-- The log was emitted in a block of the window. -/
def RawLog.within (w : Window) (l : RawLog D) : Bool := l.blockNumber.any fun n => w.Has n

theorem RawLog.within_iff {w : Window} {l : RawLog D} :
    l.within w = true ↔ ∃ n, l.blockNumber = some n ∧ w.Has n := by
  simp [RawLog.within,Option.any_eq_true]

/-- The windows that a scan of `first` to `last` asks for. -/
structure Covers (first last : ℤ) (ws : List Window) : Prop where
  tiles : Tiles last first ws
  once : ∀ n, ws.countP (fun w => w.Has n) = if first ≤ n ∧ n ≤ last then 1 else 0
  none_iff : ws = [] ↔ last < first

theorem windows_covers {step : ℤ} (hstep : 0 < step) (first last : ℤ) :
    Covers first last (windows step last first) :=
  have h := windows_tiles hstep first
  ⟨h,h.countP_has,h.eq_nil_iff⟩

/-- Each transaction and index of the wanted logs comes out once, and no other log does. -/
structure Once (wanted out : List (RawLog D)) : Prop where
  distinct : (out.filterMap RawLog.id).Nodup
  complete : ∀ k, k ∈ out.filterMap RawLog.id ↔ k ∈ wanted.filterMap RawLog.id
  wanted : out ⊆ wanted

section Chunked

/-- The windows that the dashboard's loop asks its client for. -/
def requested : Monitor (Client D) Unit (ReadError E) Window where
  issued f _ := [f.window]
  answered _ _ := []

/-- The client answers with all logs of the window; it may repeat them, and add others of the
interval. -/
def Client.Answers (chain : Text → List (RawLog D)) (interval : Window) (f : LogFilter)
    (r : Except (ReadError E) (List (RawLog D))) : Prop :=
  ∃ logs, r = .ok logs ∧ (chain f.address).filter (·.within f.window) ⊆ logs ∧
    logs ⊆ (chain f.address).filter (·.within interval)

variable {params : ChunkedParams} {fuel : ℕ} {chain : Text → List (RawLog D)}

/-- The windows of the dashboard's loop. -/
def ChunkedParams.windows (params : ChunkedParams) : List Window :=
  Windows.windows params.chunkSize params.safeHead params.fromBlock

theorem ChunkedParams.filter_window (params : ChunkedParams) (start : ℤ) :
    (params.filter start).window =
      ⟨start,min (start+params.chunkSize-1) params.safeHead⟩ := by
  simp only [LogFilter.window,ChunkedParams.filter,Window.mk.injEq,true_and]
  split <;> omega

section Loop

variable {crash : Unit → List Window → Prop}
  {honest : LogFilter → Except (ReadError E) (List (RawLog D)) → Prop}
  {G : List Window → List (RawLog D) → Prop} {F : Prop}

theorem chunk_safe {start : ℤ} {all : List (RawLog D)} {asked : List Window}
    (hcrash : crash () (asked ++ [(params.filter start).window]))
    (hgood : ∀ logs, honest (params.filter start) (.ok logs) →
      G (asked ++ [(params.filter start).window]) (all ++ logs))
    (hfails : ∀ e, honest (params.filter start) (.error e) → F) :
    Safe requested crash honest (fun r _ _ l => l = asked ++ [(params.filter start).window] ∧
      (∀ a, r = .ok a → G l a) ∧ ∀ e, r = .error e → F) (chunk params start all) () ()
      asked := by
  refine Safe.attempt_bind hcrash fun r hr => ?_
  simp only [requested,List.append_nil]
  cases r with
  | error e => exact ⟨rfl,fun a ha => (by cases ha),fun _ _ => hfails e hr⟩
  | ok logs => exact ⟨rfl,fun a ha => Except.ok.inj ha ▸ hgood logs hr,fun e he => (by cases he)⟩

/-- The loop asks for the windows one after another and ends with what they gave. -/
theorem getLogsChunked_safe (hstep : 1 ≤ params.chunkSize)
    (hfuel : turns params.safeHead params.fromBlock ≤ fuel)
    (hcrash : ∀ l, l <+: params.windows → crash () l) (hnil : G [] [])
    (hgood : ∀ start asked all logs, G asked all → honest (params.filter start) (.ok logs) →
      G (asked ++ [(params.filter start).window]) (all ++ logs))
    (hfails : ∀ start e, honest (params.filter start) (.error e) → F) :
    Safe requested crash honest (fun r _ _ => Ended params.windows
      (fun ws out => ∃ all, G ws all ∧ out = dedupeLogs all) F r)
      (getLogsChunked params fuel) () () [] := by
  unfold getLogsChunked
  split
  · next hlt =>
    have hempty : params.windows = [] := windows_of_lt hlt
    refine ⟨List.nil_prefix,fun o ho => ⟨hempty.symm,[],(Except.ok.inj ho).symm,[],?_,rfl⟩,
      fun e he => by cases he⟩
    rwa [hempty]
  · refine Safe.bind ((safe_windows (G := G) (F := F) (by omega)
      (fun start all s d asked _ hpre hall => ?_) hfuel hnil).mono fun r s d l hr => ?_)
    · rw [← params.filter_window] at hpre ⊢
      exact chunk_safe (hcrash _ hpre) (fun logs => hgood start asked all logs hall) (hfails start)
    · cases r with
      | error e => exact ⟨hr.asked,fun o ho => (by cases ho),fun _ _ => hr.thrown e rfl⟩
      | ok o =>
        obtain ⟨hl,all,rfl,hall⟩ := hr.returned o rfl
        exact ⟨hr.asked,fun o ho => ⟨hl,_,(Except.ok.inj ho).symm,all,hall,rfl⟩,
          fun e he => by cases he⟩

end Loop

/-- Once for each transaction and index, from answers that cover the windows. -/
theorem once_dedupeLogs {wanted all : List (RawLog D)} (h : ∀ l, l ∈ all ↔ l ∈ wanted) :
    Once wanted (dedupeLogs all) := by
  refine ⟨nodup_ids_dedupeFrom,fun k => ?_,fun l hl => (h l).1 (dedupeFrom_subset hl)⟩
  rw [dedupeLogs,mem_ids_dedupeFrom,List.mem_filterMap,List.mem_filterMap]
  simp only [h,List.not_mem_nil,not_false_iff,and_true]

theorem getLogsChunked_once (hstep : 1 ≤ params.chunkSize)
    (hfuel : turns params.safeHead params.fromBlock ≤ fuel) :
    Safe requested (fun _ _ => True)
      (Client.Answers (E := E) chain ⟨params.fromBlock,params.safeHead⟩)
      (fun r _ _ _ => ∃ out, r = .ok (some out) ∧
        Once ((chain params.address).filter (·.within ⟨params.fromBlock,params.safeHead⟩)) out)
      (getLogsChunked params fuel) () () [] := by
  refine (getLogsChunked_safe (F := False) (G := fun ws all =>
    (ws.flatMap fun w => (chain params.address).filter (·.within w)) ⊆ all ∧
      all ⊆ (chain params.address).filter (·.within ⟨params.fromBlock,params.safeHead⟩))
    hstep hfuel (fun _ _ => trivial) ⟨List.nil_subset _,List.nil_subset _⟩ ?_ ?_).mono
    fun r _ _ l hr => ?_
  · intro start asked all logs hall hr
    obtain ⟨logs',he,hcover,hin⟩ := hr
    cases he
    rw [List.flatMap_append,List.flatMap_singleton]
    refine ⟨List.append_subset.2 ⟨?_,?_⟩,List.append_subset.2 ⟨hall.2,hin⟩⟩
    · exact List.subset_append_of_subset_left _ hall.1
    · exact List.subset_append_of_subset_right _ hcover
  · intro start e hr
    obtain ⟨logs,he,-⟩ := hr
    cases he
  · cases r with
    | error e => exact (hr.thrown e rfl).elim
    | ok o =>
      obtain ⟨-,out,rfl,all,⟨hcover,hin⟩,rfl⟩ := hr.returned o rfl
      have htiles : Tiles params.safeHead params.fromBlock params.windows :=
        windows_tiles (by omega) _
      have hperm := htiles.flatMap_filter_perm RawLog.blockNumber (chain params.address)
      exact ⟨_,rfl,once_dedupeLogs fun l => ⟨fun hl => hin hl,fun hl =>
        hcover (hperm.mem_iff.2 hl)⟩⟩

end Chunked

section Scan

variable (decodeEventLog : D → Option Decoded)

/-- The windows that the reader's loop asks an endpoint for. -/
def scanned : Monitor (Rpc D) Unit (ScanError E) Window where
  issued
    | .getLogs _ f, _ => [f.window]
    | _, _ => []
  answered _ _ := []

/-- Both endpoints serve one chain, and each of them returns a log of a window once. -/
def Rpc.Answers (chainId : ℤ) (hash : Text) (chain : Text → List (RawLog D)) :
    (q : ReaderQuery) → Except (ScanError E) ((Rpc D).Answer q) → Prop
  | .getChainId _, r => r = .ok chainId
  | .getBlockHash _ _, r => ∃ h, r = .ok h ∧ toLowerCase h = hash
  | .getLogs _ f, r =>
    ∃ logs : List (RawLog D), r = .ok logs ∧
      logs.Perm ((chain f.address).filter (·.within f.window))

/-- What a scan returns of a log. -/
def found (eventName : EventName) (map : Decoded → ℤ → ℕ → T) (log : RawLog D) : Option T :=
  (decodeEventLog log.data).bind fun decoded =>
    if decoded.eventName ≠ eventName then none
    else log.blockNumber.bind fun blockNumber => log.logIndex.map (map decoded blockNumber)

variable {decodeEventLog} {R : RpcChainReader} {first last : ℤ} {eventName : EventName}
  {map : Decoded → ℤ → ℕ → T} {fuel : ℕ}

theorem collect_of_mined {out : List T} {logs : List (RawLog D)}
    (h : ∀ l ∈ logs, l.blockNumber.isSome ∧ l.logIndex.isSome) :
    collect (E := E) decodeEventLog eventName map out logs =
      .ok (out ++ logs.filterMap (found decodeEventLog eventName map)) := by
  induction logs generalizing out with
  | nil => simp [collect]
  | cons l logs ih =>
    obtain ⟨⟨hblock,hindex⟩,hlogs⟩ := List.forall_mem_cons.1 h
    obtain ⟨blockNumber,hb⟩ := Option.isSome_iff_exists.1 hblock
    obtain ⟨logIndex,hi⟩ := Option.isSome_iff_exists.1 hindex
    rw [collect]
    cases hdec : decodeEventLog l.data with
    | none => simp [found,hdec,ih hlogs]
    | some decoded =>
      by_cases hname : decoded.eventName = eventName
      · simp [found,hdec,hname,hb,hi,ih hlogs]
      · simp [found,hdec,hname,ih hlogs]

/-- The windows of the reader's loop. -/
def scanWindows (first last : ℤ) : List Window := windows (LOG_CHUNK+1) last first

theorem RpcChainReader.filter_window (R : RpcChainReader) (last start : ℤ) :
    (R.filter last start).window = ⟨start,min (start+(LOG_CHUNK+1)-1) last⟩ := by
  simp only [LogFilter.window,RpcChainReader.filter,Window.mk.injEq,true_and]
  split <;> omega

section Loop

variable {crash : Unit → List Window → Prop}
  {honest : (q : ReaderQuery) → Except (ScanError E) ((Rpc D).Answer q) → Prop}
  {G : List Window → List T → Prop} {F : Prop} {s : Bool}

theorem scanWindow_safe {start : ℤ} {out : List T} {asked : List Window}
    (hcrash : crash () (asked ++ [(R.filter last start).window]))
    (hgood : ∀ logs out', honest (.getLogs R.logsClient (R.filter last start)) (.ok logs) →
      collect (E := E) decodeEventLog eventName map out logs = .ok out' →
      G (asked ++ [(R.filter last start).window]) out')
    (hfails : (∃ e, honest (.getLogs R.logsClient (R.filter last start)) (.error e)) ∨
      (∃ logs e, honest (.getLogs R.logsClient (R.filter last start)) (.ok logs) ∧
        collect (E := E) decodeEventLog eventName map out logs = .error e) → F) :
    Safe scanned crash honest (fun r _ _ l => l = asked ++ [(R.filter last start).window] ∧
      (∀ a, r = .ok a → G l a) ∧ ∀ e, r = .error e → F)
      (scanWindow decodeEventLog R last eventName map start out) s () asked := by
  refine ⟨hcrash,fun r hr => ?_⟩
  simp only [scanned,List.append_nil]
  cases r with
  | error e => exact ⟨rfl,fun a ha => (by cases ha),fun _ _ => hfails (.inl ⟨e,hr⟩)⟩
  | ok logs =>
    exact ⟨rfl,fun a ha => hgood logs a hr ha,fun e he => hfails (.inr ⟨logs,e,hr,he⟩)⟩

/-- The endpoints are up and serve one chain. -/
structure Agree
    (honest : (q : ReaderQuery) → Except (ScanError E) ((Rpc D).Answer q) → Prop)
    (chainId : ℤ) (hash : Text) : Prop where
  chain : ∀ endpoint r, honest (.getChainId endpoint) r → r = .ok chainId
  block : ∀ endpoint n r, honest (.getBlockHash endpoint n) r →
    ∃ t, r = .ok t ∧ toLowerCase t = hash

/-- The check of the endpoints asks for no window, and throws only where an endpoint fails or
the two differ. -/
theorem assertLogsEndpointChain_safe (hcrash : crash () [])
    (h : ¬F → ∃ chainId hash, Agree honest chainId hash) :
    Safe scanned crash honest (fun r _ _ l => l = [] ∧ ∀ e, r = .error e → F)
      (assertLogsEndpointChain (D := D) (E := E) R) s () [] := by
  have hfails : (∀ chainId hash, Agree honest chainId hash → False) → F := by
    intro hno
    by_contra hf
    obtain ⟨chainId,hash,hagree⟩ := h hf
    exact hno chainId hash hagree
  have hok : ∀ e : ScanError E, (.ok () : Except (ScanError E) Unit) = .error e → F :=
    fun e he => by cases he
  refine Safe.get_bind ?_
  cases s with
  | true => exact ⟨rfl,hok⟩
  | false =>
    refine ⟨hcrash,fun (a : Except _ ℤ) ha => ?_⟩
    cases a with
    | error e => exact ⟨rfl,fun _ _ => hfails fun _ _ hagree => by cases hagree.chain _ _ ha⟩
    | ok a =>
    refine ⟨hcrash,fun (b : Except _ ℤ) hb => ?_⟩
    cases b with
    | error e => exact ⟨rfl,fun _ _ => hfails fun _ _ hagree => by cases hagree.chain _ _ hb⟩
    | ok b =>
    change Safe scanned crash honest _ (ite _ _ _) _ _ _
    split
    · next hne =>
      refine ⟨rfl,fun _ _ => hfails fun _ _ hagree => hne ?_⟩
      cases hagree.chain _ _ ha
      cases hagree.chain _ _ hb
      rfl
    · split
      · refine ⟨hcrash,fun ph hph => ?_⟩
        cases ph with
        | error e =>
          refine ⟨rfl,fun _ _ => hfails fun _ _ hagree => ?_⟩
          obtain ⟨t,ht,-⟩ := hagree.block _ _ _ hph
          cases ht
        | ok ph =>
        refine ⟨hcrash,fun lh hlh => ?_⟩
        cases lh with
        | error e =>
          refine ⟨rfl,fun _ _ => hfails fun _ _ hagree => ?_⟩
          obtain ⟨t,ht,-⟩ := hagree.block _ _ _ hlh
          cases ht
        | ok lh =>
        change Safe scanned crash honest _ (ite _ _ _) _ _ _
        split
        · next hne =>
          refine ⟨rfl,fun _ _ => hfails fun _ _ hagree => hne ?_⟩
          obtain ⟨t,ht,hlower⟩ := hagree.block _ _ _ hph
          obtain ⟨t',ht',hlower'⟩ := hagree.block _ _ _ hlh
          cases ht
          cases ht'
          rw [hlower,hlower']
        · exact ⟨rfl,hok⟩
      · exact ⟨rfl,hok⟩

/-- The loop asks for the windows one after another and ends with what they gave. -/
theorem scan_safe (hfuel : turns last first ≤ fuel)
    (hcrash : ∀ l, l <+: scanWindows first last → crash () l) (hnil : G [] [])
    (hagree : ¬F → ∃ chainId hash, Agree honest chainId hash)
    (hgood : ∀ start asked out logs out', (R.filter last start).window ∈ scanWindows first last →
      G asked out → honest (.getLogs R.logsClient (R.filter last start)) (.ok logs) →
      collect (E := E) decodeEventLog eventName map out logs = .ok out' →
      G (asked ++ [(R.filter last start).window]) out')
    (hfails : ∀ start out, (R.filter last start).window ∈ scanWindows first last →
      (∃ e, honest (.getLogs R.logsClient (R.filter last start)) (.error e)) ∨
      (∃ logs e, honest (.getLogs R.logsClient (R.filter last start)) (.ok logs) ∧
        collect (E := E) decodeEventLog eventName map out logs = .error e) → F) :
    Safe scanned crash honest
      (fun r _ _ l => Ended (scanWindows first last) G F r l)
      (scan decodeEventLog R first last eventName map fuel) s () [] := by
  refine Safe.bind ((assertLogsEndpointChain_safe (hcrash [] List.nil_prefix) hagree).mono
    fun r s' d l hr => ?_)
  obtain ⟨rfl,hthrown⟩ := hr
  cases r with
  | error e => exact ⟨List.nil_prefix,fun o ho => (by cases ho),fun _ _ => hthrown e rfl⟩
  | ok u =>
    refine safe_windows (by decide) (fun start out s d asked _ hpre hout => ?_) hfuel hnil
    rw [← R.filter_window] at hpre ⊢
    have hmem := hpre.subset (List.mem_append_right _ List.mem_cons_self)
    exact scanWindow_safe (hcrash _ hpre)
      (fun logs out' => hgood start asked out logs out' hmem hout) (hfails start out hmem)

end Loop

/-- Each matching log of the interval once, from answers that have each log of a window once. -/
theorem scan_once {chainId : ℤ} {hash : Text} {chain : Text → List (RawLog D)}
    (hfuel : turns last first ≤ fuel)
    (hmined : ∀ l ∈ chain R.vault, l.within ⟨first,last⟩ = true → l.logIndex.isSome) {s : Bool} :
    Safe scanned (fun _ _ => True) (Rpc.Answers (E := E) chainId hash chain)
      (fun r _ _ _ => ∃ out, r = .ok (some out) ∧
        out.Perm (((chain R.vault).filter (·.within ⟨first,last⟩)).filterMap
          (found decodeEventLog eventName map)))
      (scan decodeEventLog R first last eventName map fuel) s () [] := by
  have htiles : Tiles last first (scanWindows first last) := windows_tiles (by decide) _
  have hcollect : ∀ start (out : List T) (logs : List (RawLog D)),
      (R.filter last start).window ∈ scanWindows first last →
      logs.Perm ((chain R.vault).filter (·.within (R.filter last start).window)) →
      collect (E := E) decodeEventLog eventName map out logs =
        .ok (out ++ logs.filterMap (found decodeEventLog eventName map)) := by
    intro start out logs hmem hperm
    refine collect_of_mined fun l hl => ?_
    obtain ⟨hchain,hwithin⟩ := List.mem_filter.1 (hperm.mem_iff.1 hl)
    obtain ⟨n,hn,hhas⟩ := RawLog.within_iff.1 hwithin
    have hbounds := htiles.bounds _ hmem
    have hin : l.within ⟨first,last⟩ = true :=
      RawLog.within_iff.2 ⟨n,hn,hbounds.1.trans hhas.1,hhas.2.trans hbounds.2⟩
    exact ⟨Option.isSome_iff_exists.2 ⟨n,hn⟩,hmined l hchain hin⟩
  refine (scan_safe (F := False) (G := fun ws out => out.Perm
    ((ws.flatMap fun w => (chain R.vault).filter (·.within w)).filterMap
      (found decodeEventLog eventName map))) hfuel (fun _ _ => trivial) (List.Perm.refl _) ?_ ?_
    ?_).mono fun r _ _ l hr => ?_
  · exact fun _ => ⟨chainId,hash,fun _ _ h => h,fun _ _ _ h => h⟩
  · intro start asked out logs out' hmem hout hr hout'
    obtain ⟨logs',he,hperm⟩ := hr
    cases he
    rw [hcollect start out logs hmem hperm] at hout'
    cases hout'
    rw [List.flatMap_append,List.filterMap_append]
    refine hout.append ?_
    rw [List.flatMap_singleton]
    exact hperm.filterMap _
  · intro start out hmem h
    rcases h with ⟨e,logs,he,-⟩ | ⟨logs,e,⟨logs',he,hperm⟩,hthrown⟩
    · cases he
    · cases he
      rw [hcollect start out logs hmem hperm] at hthrown
      cases hthrown
  · cases r with
    | error e => exact (hr.thrown e rfl).elim
    | ok o =>
      obtain ⟨-,out,rfl,hout⟩ := hr.returned o rfl
      exact ⟨out,rfl,hout.trans ((htiles.flatMap_filter_perm _ _).filterMap _)⟩

end Scan

/-- Both loops end, ask for windows that cover their interval once, and so neither lose nor
repeat a log. -/
theorem scans_cover_once {D E T : Type} :
    (∀ (params : ChunkedParams) (fuel : ℕ), 1 ≤ params.chunkSize →
      turns params.safeHead params.fromBlock ≤ fuel →
      Covers params.fromBlock (params.headBlock-params.confirmations) params.windows ∧
      Safe (requested (D := D) (E := E)) (fun _ l => l <+: params.windows)
        (fun _ _ => True) (fun r _ _ => Ended params.windows (fun _ _ => True) True r)
        (getLogsChunked params fuel) () () [] ∧
      ∀ chain, Safe requested (fun _ _ => True)
        (Client.Answers (D := D) (E := E) chain ⟨params.fromBlock,params.safeHead⟩)
        (fun r _ _ _ => ∃ out, r = .ok (some out) ∧
          Once ((chain params.address).filter (·.within ⟨params.fromBlock,params.safeHead⟩)) out)
        (getLogsChunked params fuel) () () []) ∧
    ∀ (decodeEventLog : D → Option Decoded) (R : RpcChainReader) (first last : ℤ)
      (eventName : EventName) (map : Decoded → ℤ → ℕ → T) (fuel : ℕ) (verified : Bool),
      turns last first ≤ fuel →
      Covers first last (scanWindows first last) ∧
      Safe (scanned (E := E)) (fun _ l => l <+: scanWindows first last)
        (fun _ _ => True) (fun r _ _ => Ended (scanWindows first last) (fun _ _ => True) True r)
        (scan decodeEventLog R first last eventName map fuel) verified () [] ∧
      ∀ (chainId : ℤ) (hash : Text) (chain : Text → List (RawLog D)),
        (∀ l ∈ chain R.vault, l.within ⟨first,last⟩ = true → l.logIndex.isSome) →
        Safe scanned (fun _ _ => True) (Rpc.Answers (E := E) chainId hash chain)
          (fun r _ _ _ => ∃ out, r = .ok (some out) ∧
            out.Perm (((chain R.vault).filter (·.within ⟨first,last⟩)).filterMap
              (found decodeEventLog eventName map)))
          (scan decodeEventLog R first last eventName map fuel) verified () [] := by
  refine ⟨fun params fuel hstep hfuel => ⟨?_,?_,?_⟩,
    fun decodeEventLog R first last eventName map fuel verified hfuel => ⟨?_,?_,?_⟩⟩
  · exact windows_covers (by omega) _ _
  · refine (getLogsChunked_safe (G := fun _ _ => True) (F := True) hstep hfuel
      (fun _ h => h) trivial (fun _ _ _ _ _ _ => trivial) fun _ _ _ => trivial).mono
      fun r _ _ l hr => ⟨hr.asked,fun o ho => ?_,hr.thrown⟩
    obtain ⟨hl,out,ho,-⟩ := hr.returned o ho
    exact ⟨hl,out,ho,trivial⟩
  · exact fun chain => getLogsChunked_once hstep hfuel
  · exact windows_covers (by decide) _ _
  · exact scan_safe hfuel (fun _ h => h) trivial (fun h => absurd trivial h)
      (fun _ _ _ _ _ _ _ _ _ => trivial) fun _ _ _ _ => trivial
  · exact fun chainId hash chain hmined => scan_once hfuel hmined

/-- One log in the last block of the first window and one in the first block of the second; the
dashboard's client gives the first log again in the second window. -/
def boundaryChain : Text → List (RawLog Unit) := fun _ =>
  [⟨some "0xAA".toList,some 0,some 4,()⟩,⟨some "0xbb".toList,some 1,some 5,()⟩]

def boundaryParams : ChunkedParams := ⟨"0x1".toList,0,9,2,5⟩

theorem boundary_scanned :
    Safe requested (fun _ _ => True)
      (Client.Answers (D := Unit) (E := Unit) boundaryChain ⟨0,7⟩)
      (fun r _ _ _ => ∃ out, r = .ok (some out) ∧
        Once ((boundaryChain "0x1".toList).filter (·.within ⟨0,7⟩)) out)
      (getLogsChunked boundaryParams 9) () () [] ∧
    Safe scanned (fun _ _ => True) (Rpc.Answers (E := Unit) 4663 [] boundaryChain)
      (fun r _ _ _ => ∃ out, r = .ok (some out) ∧
        out.Perm (((boundaryChain []).filter (·.within ⟨0,45001⟩)).filterMap
          (found (fun _ => some ⟨.lockCreated,[],0⟩) .lockCreated fun _ n i => (n,i))))
      (scan (fun _ => some ⟨.lockCreated,[],0⟩) ⟨[],0,.primary⟩ 0 45001 .lockCreated
        (fun _ n i => (n,i)) 45003) false () [] := by
  have h := scans_cover_once (D := Unit) (E := Unit) (T := ℤ × ℕ)
  refine ⟨(h.1 boundaryParams 9 (by decide) (by decide)).2.2 boundaryChain,
    (h.2 _ ⟨[],0,.primary⟩ 0 45001 .lockCreated _ 45003 false (by decide)).2.2 4663 []
      boundaryChain ?_⟩
  simp [boundaryChain]

end LogWindows
end BpsProtocol
