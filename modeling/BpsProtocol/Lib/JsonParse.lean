import BpsProtocol.Lib.JsonLex

/-! Reading JSON texts.
The reader builds the tree that the tokens of a text are those of.  It accepts exactly the texts
of the grammar, so a text writes at most one value. -/
namespace BpsProtocol
namespace JsonParse
open Utf16 JsonText JsonTree JsonSyntax

/-! ## Trees -/

mutual

/-- The value at the front of the tokens, and what follows it. -/
def parseValue : ℕ → List Token → Option (Tree × List Token)
  | 0, _ => none
  | n+1, ks =>
    match ks with
    | .scalar a::ks => some (.leaf a,ks)
    | .openArray::ks =>
      if ks.head? = some .closeArray then some (.arr [],ks.tail)
      else (parseValue n ks).bind fun (t,ks) =>
        (parseItems n ks).map fun (ts,ks) => (.arr (t::ts),ks)
    | .openObject::ks =>
      if ks.head? = some .closeObject then some (.obj [],ks.tail)
      else (parseMember n ks).bind fun (m,ks) =>
        (parseMembers n ks).map fun (ms,ks) => (.obj (m::ms),ks)
    | _ => none

/-- The items after the first one, and the end of the array. -/
def parseItems : ℕ → List Token → Option (List Tree × List Token)
  | 0, _ => none
  | n+1, ks =>
    match ks with
    | .closeArray::ks => some ([],ks)
    | .comma::ks =>
      (parseValue n ks).bind fun (t,ks) =>
        (parseItems n ks).map fun (ts,ks) => (t::ts,ks)
    | _ => none

def parseMember : ℕ → List Token → Option ((StringLit × Tree) × List Token)
  | 0, _ => none
  | n+1, ks =>
    match ks with
    | .scalar (.str k)::.colon::ks => (parseValue n ks).map fun (t,ks) => ((k,t),ks)
    | _ => none

def parseMembers : ℕ → List Token → Option (List (StringLit × Tree) × List Token)
  | 0, _ => none
  | n+1, ks =>
    match ks with
    | .closeObject::ks => some ([],ks)
    | .comma::ks =>
      (parseMember n ks).bind fun (m,ks) =>
        (parseMembers n ks).map fun (ms,ks) => (m::ms,ks)
    | _ => none

end

def tokensMember (m : StringLit × Tree) : List Token := .name m.1 :: .colon :: tokens m.2

section Sound

variable {ks r : List Token}

theorem tokens_arr (t : Tree) (ts : List Tree) :
    tokens (.arr (t::ts)) ++ r =
      .openArray :: (tokens t ++ (tokensItems ts ++ .closeArray :: r)) := by
  simp [tokens]

theorem tokens_obj (m : StringLit × Tree) (ms : List (StringLit × Tree)) :
    tokens (.obj (m::ms)) ++ r =
      .openObject :: (tokensMember m ++ (tokensMembers ms ++ .closeObject :: r)) := by
  simp [tokens,tokensMember]

theorem tokensMembers_cons (m : StringLit × Tree) (ms : List (StringLit × Tree)) :
    tokensMembers (m::ms) ++ r = .comma :: (tokensMember m ++ (tokensMembers ms ++ r)) := by
  simp [tokensMembers,tokensMember]

/-- What is parsed are the tokens of the result. -/
theorem parse_sound : ∀ n : ℕ,
    (∀ {ks r t}, parseValue n ks = some (t,r) → ks = tokens t ++ r) ∧
    (∀ {ks r ts}, parseItems n ks = some (ts,r) → ks = tokensItems ts ++ .closeArray :: r) ∧
    (∀ {ks r m}, parseMember n ks = some (m,r) → ks = tokensMember m ++ r) ∧
    ∀ {ks r ms}, parseMembers n ks = some (ms,r) → ks = tokensMembers ms ++ .closeObject :: r := by
  intro n
  induction n with
  | zero =>
    refine ⟨fun h => ?_,fun h => ?_,fun h => ?_,fun h => ?_⟩
    all_goals cases h
  | succ n ih =>
    obtain ⟨hvalue,hitems,hmember,hmembers⟩ := ih
    refine ⟨fun {ks r t} h => ?_,fun {ks r ts} h => ?_,fun {ks r m} h => ?_,fun {ks r ms} h => ?_⟩
    · unfold parseValue at h
      split at h
      · cases h
        rfl
      · rename_i ks
        split at h
        · rename_i hclose
          cases ks with
          | nil => cases hclose
          | cons k ks =>
            cases h
            rw [Option.some.inj hclose]
            rfl
        · obtain ⟨x,hx,h⟩ := Option.bind_eq_some_iff.1 h
          obtain ⟨y,hy,h⟩ := Option.map_eq_some_iff.1 h
          cases h
          rw [tokens_arr,hvalue hx,hitems hy]
      · rename_i ks
        split at h
        · rename_i hclose
          cases ks with
          | nil => cases hclose
          | cons k ks =>
            cases h
            rw [Option.some.inj hclose]
            rfl
        · obtain ⟨x,hx,h⟩ := Option.bind_eq_some_iff.1 h
          obtain ⟨y,hy,h⟩ := Option.map_eq_some_iff.1 h
          cases h
          rw [tokens_obj,hmember hx,hmembers hy]
      · cases h
    · unfold parseItems at h
      split at h
      · cases h
        rfl
      · obtain ⟨x,hx,h⟩ := Option.bind_eq_some_iff.1 h
        obtain ⟨y,hy,h⟩ := Option.map_eq_some_iff.1 h
        cases h
        rw [tokensItems,List.cons_append,List.cons_append,List.append_assoc,hvalue hx,hitems hy]
      · cases h
    · unfold parseMember at h
      split at h
      · obtain ⟨x,hx,h⟩ := Option.map_eq_some_iff.1 h
        cases h
        rw [hvalue hx]
        rfl
      · cases h
    · unfold parseMembers at h
      split at h
      · cases h
        rfl
      · obtain ⟨x,hx,h⟩ := Option.bind_eq_some_iff.1 h
        obtain ⟨y,hy,h⟩ := Option.map_eq_some_iff.1 h
        cases h
        rw [tokensMembers_cons,hmember hx,hmembers hy]
      · cases h

end Sound

section Complete

variable {ks r : List Token} {n : ℕ}

/-- No value starts like the end of an array or object. -/
theorem tokens_head (t : Tree) : ∃ k ks, tokens t = k::ks ∧ k ≠ .closeArray := by
  cases t with
  | leaf a => exact ⟨_,_,rfl,by simp⟩
  | arr items => cases items <;> exact ⟨.openArray,_,rfl,by simp⟩
  | obj members => cases members <;> exact ⟨.openObject,_,rfl,by simp⟩

theorem length_pos (t : Tree) : 1 ≤ (tokens t).length := by
  obtain ⟨k,ks,h,-⟩ := tokens_head t
  rw [h,List.length_cons]
  omega

theorem parseMember_complete {k : StringLit} {t : Tree}
    (h : parseValue n (tokens t ++ r) = some (t,r)) :
    parseMember (n+1) (tokensMember (k,t) ++ r) = some ((k,t),r) := by
  unfold parseMember
  simp only [tokensMember,List.cons_append,h,Option.map_some]

mutual

/-- With as much fuel as there are tokens a value is parsed again. -/
theorem parseValue_complete : ∀ {t : Tree} {n : ℕ} {r : List Token}, (tokens t).length ≤ n →
    parseValue n (tokens t ++ r) = some (t,r)
  | t, 0, r, h => by
    have hpos := length_pos t
    omega
  | .leaf a, n+1, r, _ => by
    unfold parseValue
    rw [tokens]
    rfl
  | .arr [], n+1, r, _ => by
    unfold parseValue
    rw [tokens]
    rfl
  | .arr (t::ts), n+1, r, h => by
    have hlength := congrArg List.length (tokens_arr (r := []) t ts)
    simp only [List.append_nil,List.length_cons,List.length_append,List.length_nil] at hlength
    have hhead : (tokens t ++ (tokensItems ts ++ .closeArray :: r)).head? ≠ some .closeArray := by
      obtain ⟨k,ks,hk,hne⟩ := tokens_head t
      rw [hk]
      exact fun heq => hne (Option.some.inj heq)
    have ht := parseValue_complete (t := t) (n := n) (r := tokensItems ts ++ .closeArray :: r)
      (by omega)
    have hts := @parseItems_complete ts n r (by omega)
    unfold parseValue
    rw [tokens_arr]
    simp only [if_neg hhead,ht,hts,Option.bind_some,Option.map_some]
  | .obj [], n+1, r, _ => by
    unfold parseValue
    rw [tokens]
    rfl
  | .obj ((k,t)::ms), n+1, r, h => by
    have hlength := congrArg List.length (tokens_obj (r := []) (k,t) ms)
    simp only [List.append_nil,List.length_cons,List.length_append,List.length_nil,
      tokensMember] at hlength
    obtain ⟨m,rfl⟩ : ∃ m, n = m+1 := ⟨n-1,by omega⟩
    have hhead : (tokensMember (k,t) ++ (tokensMembers ms ++ .closeObject :: r)).head? ≠
        some .closeObject := by
      simp [tokensMember]
    have ht := parseMember_complete (k := k) (parseValue_complete (t := t) (n := m)
      (r := tokensMembers ms ++ .closeObject :: r) (by omega))
    have hms := @parseMembers_complete ms (m+1) r (by omega)
    unfold parseValue
    rw [tokens_obj]
    simp only [if_neg hhead,ht,hms,Option.bind_some,Option.map_some]

theorem parseItems_complete : ∀ {ts : List Tree} {n : ℕ} {r : List Token},
    (tokensItems ts).length+1 ≤ n →
      parseItems n (tokensItems ts ++ .closeArray :: r) = some (ts,r)
  | [], n+1, r, _ => by
    unfold parseItems
    rw [tokensItems]
    rfl
  | t::ts, n+1, r, h => by
    rw [tokensItems,List.length_append,List.length_cons] at h
    have ht := parseValue_complete (t := t) (n := n) (r := tokensItems ts ++ .closeArray :: r)
      (by omega)
    have hts := @parseItems_complete ts n r (by omega)
    unfold parseItems
    rw [tokensItems,List.cons_append,List.cons_append,List.append_assoc]
    simp only [ht,hts,Option.bind_some,Option.map_some]

theorem parseMembers_complete : ∀ {ms : List (StringLit × Tree)} {n : ℕ} {r : List Token},
    (tokensMembers ms).length+1 ≤ n →
      parseMembers n (tokensMembers ms ++ .closeObject :: r) = some (ms,r)
  | [], n+1, r, _ => by
    unfold parseMembers
    rw [tokensMembers]
    rfl
  | (k,t)::ms, n+1, r, h => by
    have hlength := congrArg List.length (tokensMembers_cons (r := []) (k,t) ms)
    simp only [List.append_nil,List.length_cons,List.length_append,tokensMember] at hlength
    obtain ⟨m,rfl⟩ : ∃ m, n = m+1 := ⟨n-1,by omega⟩
    have ht := parseMember_complete (k := k) (parseValue_complete (t := t) (n := m)
      (r := tokensMembers ms ++ .closeObject :: r) (by omega))
    have hms := @parseMembers_complete ms (m+1) r (by omega)
    unfold parseMembers
    rw [tokensMembers_cons]
    simp only [ht,hms,Option.bind_some,Option.map_some]

end

end Complete

/-! ## Spacing -/

section Spacing

variable {ks ks' : List Token} {k : Token}

theorem Spaced.append (h : Spaced ks) (h' : Spaced ks')
    (hhead : ∀ k ∈ ks'.head?, isScalar k = false) : Spaced (ks ++ ks') :=
  List.isChain_append.2 ⟨h,h',fun _ _ k hk _ => hhead k hk⟩

theorem Spaced.cons (h : Spaced ks) (hk : isScalar k = false) : Spaced (k::ks) :=
  List.isChain_cons.2 ⟨fun _ _ hscalar => absurd hscalar (by rw [hk]; decide),h⟩

theorem Spaced.member {s : StringLit} (h : Spaced ks) : Spaced (.name s :: .colon :: ks) :=
  List.isChain_cons_cons.2 ⟨fun _ => rfl,Spaced.cons h rfl⟩

theorem Spaced.close (h : Spaced ks) (hk : isScalar k = false) : Spaced (ks ++ [k]) :=
  h.append (List.isChain_singleton _) fun _ hk' => (Option.some.inj hk') ▸ hk

theorem head_tokensItems (ts : List Tree) : ∀ k ∈ (tokensItems ts).head?, isScalar k = false := by
  cases ts with
  | nil => simp [tokensItems]
  | cons t ts => simp [tokensItems,isScalar]

theorem head_tokensMembers (ms : List (StringLit × Tree)) :
    ∀ k ∈ (tokensMembers ms).head?, isScalar k = false := by
  cases ms with
  | nil => simp [tokensMembers]
  | cons m ms => simp [tokensMembers,isScalar]

mutual

theorem spaced_tokens : ∀ t : Tree, Spaced (tokens t)
  | .leaf a => by
    rw [tokens]
    exact List.isChain_singleton _
  | .arr [] => by
    rw [tokens]
    exact Spaced.cons (List.isChain_singleton _) rfl
  | .arr (t::ts) => by
    rw [tokens,List.cons_append]
    exact (Spaced.cons ((spaced_tokens t).append (spaced_tokensItems ts) (head_tokensItems ts))
      rfl).close rfl
  | .obj [] => by
    rw [tokens]
    exact Spaced.cons (List.isChain_singleton _) rfl
  | .obj ((k,t)::ms) => by
    rw [tokens,List.cons_append,List.cons_append,List.cons_append]
    exact (Spaced.cons ((spaced_tokens t).append (spaced_tokensMembers ms)
      (head_tokensMembers ms)).member rfl).close rfl

theorem spaced_tokensItems : ∀ ts : List Tree, Spaced (tokensItems ts)
  | [] => by
    rw [tokensItems]
    exact List.isChain_nil
  | t::ts => by
    rw [tokensItems,List.cons_append]
    exact Spaced.cons ((spaced_tokens t).append (spaced_tokensItems ts) (head_tokensItems ts)) rfl

theorem spaced_tokensMembers : ∀ ms : List (StringLit × Tree), Spaced (tokensMembers ms)
  | [] => by
    rw [tokensMembers]
    exact List.isChain_nil
  | (k,t)::ms => by
    rw [tokensMembers,List.cons_append,List.cons_append,List.cons_append]
    exact Spaced.cons ((spaced_tokens t).append (spaced_tokensMembers ms)
      (head_tokensMembers ms)).member rfl

end

end Spacing

/-! ## Texts -/

/-- The value a text writes; nothing for a text outside of the grammar. -/
def parse (s : JsString) : Option Tree :=
  (lex s.length s).bind fun ks =>
    (parseValue ks.length ks).bind fun (t,r) => if r = [] then some t else none

theorem length_le_of_spells {s : JsString} {ks : List Token} (h : Spells s ks) :
    ks.length ≤ s.length := by
  induction h with
  | nil hw => exact Nat.zero_le _
  | @cons w s k ks hw hs ih =>
    obtain ⟨u,t,htext,-⟩ := text_head k
    simp only [htext,List.length_append,List.length_cons]
    omega

/-- The reader accepts exactly the texts of the grammar. -/
theorem parse_eq_some_iff {s : JsString} {t : Tree} : parse s = some t ↔ Writes s t := by
  constructor
  · intro h
    obtain ⟨ks,hks,h⟩ := Option.bind_eq_some_iff.1 h
    obtain ⟨⟨u,r⟩,hx,h⟩ := Option.bind_eq_some_iff.1 h
    have htokens := (parse_sound ks.length).1 hx
    by_cases hnil : r = []
    · simp only [hnil,if_true,Option.some.injEq] at h
      rw [hnil,List.append_nil,h] at htokens
      rw [htokens] at hks
      exact lex_sound hks
    · simp only [if_neg hnil,reduceCtorEq] at h
  · intro h
    have hvalue := parseValue_complete (t := t) (r := []) (Nat.le_refl _)
    rw [List.append_nil] at hvalue
    rw [parse,lex_complete h (spaced_tokens t) (length_le_of_spells h),Option.bind_some,hvalue]
    rfl

/-- A text writes at most one value. -/
theorem writes_unique {s : JsString} {t u : Tree} (ht : Writes s t) (hu : Writes s u) : t = u := by
  have hsome := parse_eq_some_iff.2 ht
  rw [parse_eq_some_iff.2 hu] at hsome
  exact (Option.some.inj hsome).symm

end JsonParse
end BpsProtocol
