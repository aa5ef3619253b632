import TcpUdpProxy.ConfigurationErrors
import TcpUdpProxy.Library.Tokens

namespace TcpUdpProxy.SharedData

inductive Meaning
  | ip (sendBandwidth recvBandwidth : ℤ)
  | tcp (rule : TcpProxyRule)
  | udp (rule : UdpProxyRule)

def tokens (line : Line) : List (List Char) := Tokens.tokens isSpace line

def wholeNumber (token : List Char) : Option ℤ :=
  let (negative, digits) := Stream.sign token
  if digits ≠ [] ∧ digits.all Char.isDigit then
    some (if negative then -(decimal digits : ℤ) else decimal digits)
  else none

def intToken (token : List Char) : Option ℤ :=
  (wholeNumber token).filter fun x => -2147483648 ≤ x ∧ x ≤ 2147483647

def portToken (token : List Char) : Option ℕ :=
  ((wholeNumber token).filter fun x => 0 ≤ x ∧ x ≤ 65535).map Int.toNat

def paramTokens (n : ℕ) (tokens : List (List Char)) : Bool :=
  tokens.length ≤ n && tokens.all fun t => (intToken t).isSome

def param (tokens : List (List Char)) (i : ℕ) : ℤ := (tokens[i]?.bind intToken).getD 0

def ipMeaning : List (List Char) → Option Meaning
  | [sendBandwidth, recvBandwidth] => do
    return .ip (← intToken sendBandwidth) (← intToken recvBandwidth)
  | _ => none

/-- `SRC_PORT DST_IP DST_PORT`, followed by at most `n` parameters. -/
def endpointMeaning (fromString : List Char → Option Address) (n : ℕ) :
    List (List Char) → Option (ℕ × Endpoint × List (List Char))
  | srcPort :: dstIp :: dstPort :: params => do
    let srcPort ← portToken srcPort
    let address ← fromString dstIp
    let dstPort ← portToken dstPort
    if paramTokens n params then some (srcPort, ⟨address, dstPort⟩, params) else none
  | _ => none

def meaning (fromString : List Char → Option Address) : List (List Char) → Option Meaning
  | [] => none
  | proto :: fields =>
    if proto = ['i', 'p'] then ipMeaning fields
    else if proto = ['t', 'c', 'p'] then
      (endpointMeaning fromString 2 fields).map fun (srcPort, dst, params) =>
        .tcp ⟨srcPort, dst, param params 0, param params 1⟩
    else if proto = ['u', 'd', 'p'] then
      (endpointMeaning fromString 3 fields).map fun (srcPort, dst, params) =>
        .udp ⟨srcPort, dst, param params 0, param params 1, param params 2⟩
    else none

def Meaning.effect (cfg : Config) (vars : Vars) (rules : Rules) : Meaning → ℤ × ℤ × Rules × Outcome
  | .ip sendBandwidth recvBandwidth => (sendBandwidth, recvBandwidth, rules, .done)
  | .tcp rule => (vars.ipSendBandwidth, vars.ipRecvBandwidth, rules.startTcp cfg rule)
  | .udp rule => (vars.ipSendBandwidth, vars.ipRecvBandwidth, rules.addUdp rule, .done)

def effect (r : Vars × Rules × Outcome) : ℤ × ℤ × Rules × Outcome :=
  (r.1.ipSendBandwidth, r.1.ipRecvBandwidth, r.2)

def Documented (cfg : Config) (line : Line) : Prop :=
  rejected cfg line = true ∨ ∃ m, meaning cfg.fromString (tokens line) = some m ∧
    ∀ vars rules, effect (readLine cfg (trim line) vars rules) = m.effect cfg vars rules

namespace Stream

def atBreak (is : Stream) : Bool := is.rest.head?.all isSpace

def spent (is : Stream) : Bool := is.rest.all isSpace

/-- The port that is read next ends with its token, and has no minus unless it is zero. -/
def wholePort (cfg : Config) (is : Stream) : Bool :=
  (is.uint16 cfg).1.atBreak &&
    ((is.rest.dropWhile isSpace).head? ≠ some '-' || (is.uint16 cfg).2 = some 0)

/-- What is left is blank after at most `n` numbers that can be read, each up to the end of its token. -/
def wholeParams (cfg : Config) : ℕ → Stream → Bool
  | 0, is => is.spent
  | n + 1, is => is.spent ||
      (!(is.int cfg).1.failed && (is.int cfg).1.atBreak && wholeParams cfg n (is.int cfg).1)

def wholeIp (cfg : Config) (is : Stream) : Bool :=
  (is.int cfg).1.atBreak && ((is.int cfg).1.int cfg).1.spent

def wholeEndpoint (cfg : Config) (n : ℕ) (is : Stream) : Bool :=
  is.wholePort cfg && (is.uint16 cfg).1.word.1.wholePort cfg &&
    ((is.uint16 cfg).1.word.1.uint16 cfg).1.wholeParams cfg n

end Stream

def wholeFields (cfg : Config) (line : Line) : Bool :=
  let (is, proto) := Stream.word ⟨line, false⟩
  if proto = some ['i', 'p'] then is.wholeIp cfg
  else if proto = some ['t', 'c', 'p'] then is.wholeEndpoint cfg 2
  else if proto = some ['u', 'd', 'p'] then is.wholeEndpoint cfg 3
  else true

theorem tokens_trim (line : Line) : tokens (trim line) = tokens line := by
  unfold tokens trim
  rw [Tokens.tokens_rdropWhile, Tokens.tokens_dropWhile]

section streams

variable {cfg : Config} {is : Stream} {t : List Char} {ts : List (List Char)}

theorem atBreak_iff (is : Stream) : is.atBreak = true ↔
    is.rest.takeWhile (fun c => !isSpace c) = [] := by
  unfold Stream.atBreak
  cases is.rest with
  | nil => simp
  | cons c rest => cases hc : isSpace c <;> simp [hc]

theorem spent_iff : is.spent = true ↔ tokens is.rest = [] := Tokens.tokens_eq_nil.symm

theorem digit_not_space {c : Char} (h : c.isDigit = true) : isSpace c = false := by
  by_contra hspace
  have hmem : c ∈ [' ', '\t', '\n', '\x0b', '\x0c', '\r'] := of_decide_eq_true ((Bool.not_eq_false _).mp hspace)
  simp only [List.mem_cons, List.not_mem_nil, or_false] at hmem
  rcases hmem with rfl | rfl | rfl | rfl | rfl | rfl <;> cases h

theorem sign_other {c : Char} {rest : List Char} (hminus : c ≠ '-') (hplus : c ≠ '+') :
    Stream.sign (c :: rest) = (false, c :: rest) := by
  unfold Stream.sign
  split
  next h => exact absurd (List.cons.inj h).1 hminus
  next h => exact absurd (List.cons.inj h).1 hplus
  · rfl

theorem sign_token (cs : List Char) :
    Stream.sign (cs.takeWhile fun c => !isSpace c) =
        ((Stream.sign cs).1, (Stream.sign cs).2.takeWhile fun c => !isSpace c) ∧
      (cs.dropWhile fun c => !isSpace c) = (Stream.sign cs).2.dropWhile (fun c => !isSpace c) ∧
      ((Stream.sign cs).1 = true ↔ cs.head? = some '-') := by
  cases cs with
  | nil => exact ⟨rfl, rfl, by simp [Stream.sign]⟩
  | cons c rest =>
    by_cases hminus : c = '-'
    · subst hminus
      have hspace : isSpace '-' = false := by decide
      simp [Stream.sign, hspace]
    · by_cases hplus : c = '+'
      · subst hplus
        have hspace : isSpace '+' = false := by decide
        simp [Stream.sign, hspace]
      · rw [sign_other hminus hplus]
        refine ⟨?_, rfl, by simp [hminus]⟩
        cases hc : isSpace c with
        | true => simp [hc, Stream.sign]
        | false => simpa [hc] using sign_other hminus hplus

theorem takeWhile_digits (body : List Char) : (body.takeWhile fun c => !isSpace c) =
    body.takeWhile Char.isDigit ++ (body.dropWhile Char.isDigit).takeWhile fun c => !isSpace c := by
  have hdigits : ∀ c ∈ body.takeWhile Char.isDigit, (!isSpace c) = true := by
    intro c hc
    rw [digit_not_space (List.mem_takeWhile_imp hc)]
    rfl
  conv_lhs => rw [← List.takeWhile_append_dropWhile (p := Char.isDigit) (l := body)]
  rw [List.takeWhile_append_of_pos hdigits]

theorem dropWhile_digits (body : List Char) : (body.dropWhile fun c => !isSpace c) =
    (body.dropWhile Char.isDigit).dropWhile fun c => !isSpace c := by
  have hdigits : ∀ c ∈ body.takeWhile Char.isDigit, (!isSpace c) = true := by
    intro c hc
    rw [digit_not_space (List.mem_takeWhile_imp hc)]
    rfl
  conv_lhs => rw [← List.takeWhile_append_dropWhile (p := Char.isDigit) (l := body)]
  rw [List.dropWhile_append_of_pos hdigits]

theorem all_digits_iff (body : List Char) :
    (body.takeWhile fun c => !isSpace c).all Char.isDigit = true ↔
      (body.dropWhile Char.isDigit).takeWhile (fun c => !isSpace c) = [] := by
  rw [takeWhile_digits, List.all_append, Bool.and_eq_true]
  have hdigits : (body.takeWhile Char.isDigit).all Char.isDigit = true := by
    rw [List.all_eq_true]
    exact fun c hc => List.mem_takeWhile_imp hc
  rw [and_iff_right hdigits]
  have hhead := List.head?_dropWhile_not Char.isDigit body
  cases hafter : body.dropWhile Char.isDigit with
  | nil => simp
  | cons c after =>
    rw [hafter] at hhead
    cases hc : isSpace c with
    | true => simp [hc]
    | false => simp_all

theorem number_token (cfg : Config) (hfailed : is.failed = false) (htokens : tokens is.rest = t :: ts) :
    ∃ negative digits after,
      (∀ (α : Type) (zero : α) (convert : Bool → ℕ → α × Bool), is.number cfg zero convert =
        if digits = [] then (⟨after, true⟩, some zero)
        else (⟨after, !(convert negative (decimal digits)).2⟩, some (convert negative (decimal digits)).1)) ∧
      wholeNumber t = (if digits ≠ [] ∧ after.takeWhile (fun c => !isSpace c) = [] then
        some (if negative then -(decimal digits : ℤ) else decimal digits) else none) ∧
      (after.takeWhile (fun c => !isSpace c) = [] → tokens after = ts) ∧
      (negative = true ↔ (is.rest.dropWhile isSpace).head? = some '-') := by
  cases hrest : is.rest.dropWhile isSpace with
  | nil =>
    have hnone : tokens is.rest = [] := by
      rw [tokens, ← Tokens.tokens_dropWhile, hrest]
      rfl
    rw [hnone] at htokens
    cases htokens
  | cons first rest =>
    have hsplit := Tokens.tokens_of_dropWhile hrest
    rw [← tokens, htokens, List.cons.injEq] at hsplit
    obtain ⟨ht, hts⟩ := hsplit
    obtain ⟨hsign, hdrop, hnegative⟩ := sign_token (first :: rest)
    set body := (Stream.sign (first :: rest)).2 with hbody
    refine ⟨(Stream.sign (first :: rest)).1, body.takeWhile Char.isDigit, body.dropWhile Char.isDigit, ?_, ?_, ?_, ?_⟩
    · intro α zero convert
      unfold Stream.number
      rw [hfailed, hrest]
      rfl
    · rw [ht, wholeNumber, hsign]
      dsimp only
      have hwhole : ((body.takeWhile fun c => !isSpace c) ≠ [] ∧
          (body.takeWhile fun c => !isSpace c).all Char.isDigit = true) ↔
          (body.takeWhile Char.isDigit ≠ [] ∧
            (body.dropWhile Char.isDigit).takeWhile (fun c => !isSpace c) = []) := by
        rw [all_digits_iff]
        apply and_congr_left
        intro hjunk
        rw [takeWhile_digits, hjunk, List.append_nil]
      simp only [hwhole]
      split
      next h => rw [takeWhile_digits, h.2, List.append_nil]
      · rfl
    · intro hjunk
      rw [hts, hdrop, dropWhile_digits]
      have hsame := List.takeWhile_append_dropWhile (p := fun c => !isSpace c) (l := body.dropWhile Char.isDigit)
      rw [hjunk, List.nil_append] at hsame
      rw [hsame]
      rfl
    · exact hnegative

theorem convertInt_iff (negative : Bool) (magnitude : ℕ) (x : ℤ) :
    (if negative then -(magnitude : ℤ) else magnitude) = x ∧ -2147483648 ≤ x ∧ x ≤ 2147483647 ↔
      (convertInt negative magnitude).2 = true ∧ (convertInt negative magnitude).1 = x := by
  unfold convertInt
  cases negative
  · by_cases h : magnitude ≤ 2147483647
    · simp only [Bool.false_eq_true, if_false, h, if_true, true_and]
      omega
    · simp only [Bool.false_eq_true, if_false, h, false_and, iff_false]
      omega
  · by_cases h : magnitude ≤ 2147483648
    · simp only [if_true, h, true_and]
      omega
    · simp only [if_true, h, if_false, Bool.false_eq_true, false_and, iff_false]
      omega

theorem convertUint16_iff (negative : Bool) (magnitude n : ℕ) :
    (∃ x : ℤ, (if negative then -(magnitude : ℤ) else magnitude) = x ∧ (0 ≤ x ∧ x ≤ 65535) ∧ x.toNat = n) ↔
      (convertUint16 negative magnitude).2 = true ∧
        (negative = true → (convertUint16 negative magnitude).1 = 0) ∧
        (convertUint16 negative magnitude).1 = n := by
  unfold convertUint16
  by_cases h : magnitude ≤ 65535
  · cases negative
    · simp only [Bool.false_eq_true, if_false, h, if_true, true_and, false_imp_iff, exists_eq_left']
      omega
    · simp only [if_true, h, true_and, true_imp_iff, exists_eq_left']
      omega
  · cases negative
    · simp only [Bool.false_eq_true, if_false, h, false_and, iff_false, exists_eq_left']
      omega
    · simp only [if_true, h, if_false, Bool.false_eq_true, false_and, iff_false, exists_eq_left']
      omega

theorem intToken_iff (t : List Char) (x : ℤ) : intToken t = some x ↔
    wholeNumber t = some x ∧ -2147483648 ≤ x ∧ x ≤ 2147483647 := by
  simp [intToken, Option.filter_eq_some_iff]

theorem portToken_iff (t : List Char) (n : ℕ) : portToken t = some n ↔
    ∃ x, wholeNumber t = some x ∧ (0 ≤ x ∧ x ≤ 65535) ∧ x.toNat = n := by
  simp [portToken, Option.filter_eq_some_iff, and_assoc]

theorem int_token (cfg : Config) (hfailed : is.failed = false) (htokens : tokens is.rest = t :: ts) (x : ℤ) :
    (intToken t = some x ↔
      (is.int cfg).1.failed = false ∧ (is.int cfg).1.atBreak = true ∧ (is.int cfg).2 = some x) ∧
    ((is.int cfg).1.atBreak = true → tokens (is.int cfg).1.rest = ts) := by
  obtain ⟨negative, digits, after, hnumber, hwhole, hrest, -⟩ := number_token cfg hfailed htokens
  rw [Stream.int, hnumber, intToken_iff, hwhole]
  by_cases hdigits : digits = []
  · simp only [hdigits, if_true, atBreak_iff]
    exact ⟨by simp, hrest⟩
  · simp only [hdigits, if_false, atBreak_iff]
    refine ⟨?_, hrest⟩
    by_cases hbreak : after.takeWhile (fun c => !isSpace c) = []
    · simp only [hdigits, hbreak, not_false_eq_true, ne_eq, and_self, if_true, Option.some.injEq, convertInt_iff,
        Bool.not_eq_false', true_and]
    · simp [hbreak]

theorem uint16_token (cfg : Config) (hfailed : is.failed = false) (htokens : tokens is.rest = t :: ts) (n : ℕ) :
    (portToken t = some n ↔
      (is.uint16 cfg).1.failed = false ∧ is.wholePort cfg = true ∧ (is.uint16 cfg).2 = some n) ∧
    ((is.uint16 cfg).1.atBreak = true → tokens (is.uint16 cfg).1.rest = ts) := by
  obtain ⟨negative, digits, after, hnumber, hwhole, hrest, hnegative⟩ := number_token cfg hfailed htokens
  rw [Stream.wholePort, Bool.and_eq_true, Bool.or_eq_true, decide_eq_true_eq, decide_eq_true_eq, ne_eq,
    ← hnegative, Stream.uint16, hnumber, portToken_iff, hwhole]
  by_cases hdigits : digits = []
  · simp only [hdigits, if_true, atBreak_iff]
    exact ⟨by simp, hrest⟩
  · simp only [hdigits, if_false, atBreak_iff]
    refine ⟨?_, hrest⟩
    by_cases hbreak : after.takeWhile (fun c => !isSpace c) = []
    · simp only [hdigits, hbreak, not_false_eq_true, ne_eq, and_self, if_true, Option.some.injEq, convertUint16_iff,
        Bool.not_eq_false', true_and, or_iff_not_imp_left, not_not]
    · simp [hbreak]

theorem word_token (hfailed : is.failed = false) (htokens : tokens is.rest = t :: ts) :
    is.word.1.failed = false ∧ is.word.2 = some t ∧ tokens is.word.1.rest = ts := by
  cases hrest : is.rest.dropWhile isSpace with
  | nil =>
    have hnone : tokens is.rest = [] := by
      rw [tokens, ← Tokens.tokens_dropWhile, hrest]
      rfl
    rw [hnone] at htokens
    cases htokens
  | cons first rest =>
    have hsplit := Tokens.tokens_of_dropWhile hrest
    rw [← tokens, htokens, List.cons.injEq] at hsplit
    rw [Stream.word, hfailed, hrest, hsplit.1, hsplit.2]
    exact ⟨rfl, rfl, rfl⟩

theorem dropWhile_of_tokens (htokens : tokens is.rest = []) : is.rest.dropWhile isSpace = [] := by
  rw [List.dropWhile_eq_nil_iff]
  exact List.all_eq_true.mp (Tokens.tokens_eq_nil.mp htokens)

theorem number_end {α : Type} {zero : α} {convert : Bool → ℕ → α × Bool} (htokens : tokens is.rest = []) :
    (is.number cfg zero convert).1.failed = true := by
  unfold Stream.number
  split
  next hfailed => exact hfailed
  next => rw [dropWhile_of_tokens htokens]

theorem word_end (htokens : tokens is.rest = []) : is.word.1.failed = true := by
  unfold Stream.word
  split
  next hfailed => exact hfailed
  next => rw [dropWhile_of_tokens htokens]

theorem intToken_isSome (cfg : Config) (hfailed : is.failed = false) (htokens : tokens is.rest = t :: ts) :
    (intToken t).isSome = true ↔ (is.int cfg).1.failed = false ∧ (is.int cfg).1.atBreak = true := by
  rw [Option.isSome_iff_exists]
  constructor
  · rintro ⟨x, hx⟩
    obtain ⟨hread, hbreak, -⟩ := (int_token cfg hfailed htokens x).1.mp hx
    exact ⟨hread, hbreak⟩
  · rintro ⟨hread, hbreak⟩
    obtain ⟨x, hx⟩ := number_stored is hread
    exact ⟨x, (int_token cfg hfailed htokens x).1.mpr ⟨hread, hbreak, hx⟩⟩

theorem wholeParams_iff (cfg : Config) (hfailed : is.failed = false) (n : ℕ) :
    is.wholeParams cfg n = true ↔ paramTokens n (tokens is.rest) = true := by
  induction n generalizing is with
  | zero =>
    rw [Stream.wholeParams, spent_iff]
    cases tokens is.rest <;> simp [paramTokens]
  | succ n ih =>
    rw [Stream.wholeParams, Bool.or_eq_true, spent_iff]
    cases htokens : tokens is.rest with
    | nil => simp [paramTokens]
    | cons t ts =>
      have hparams : paramTokens (n + 1) (t :: ts) = true ↔
          (intToken t).isSome = true ∧ paramTokens n ts = true := by
        simp only [paramTokens, List.length_cons, Nat.add_le_add_iff_right, List.all_cons, Bool.and_eq_true,
          decide_eq_true_eq]
        exact and_left_comm
      rw [hparams, intToken_isSome cfg hfailed htokens, Bool.and_eq_true, Bool.and_eq_true, Bool.not_eq_true']
      simp only [reduceCtorEq, false_or]
      apply and_congr_right
      rintro ⟨hread, hbreak⟩
      rw [ih hread, (int_token cfg hfailed htokens 0).2 hbreak]

/-- What is left for the optional parameters: the tokens, or nothing once an extraction has failed. -/
def Left (is : Stream) (ts : List (List Char)) : Prop :=
  (is.failed = false ∧ tokens is.rest = ts) ∨ (is.failed = true ∧ ts = [])

theorem extraParam_left (cfg : Config) (h : Left is ts) (hts : ts.all (fun t => (intToken t).isSome) = true) :
    Left (extraParam cfg is 0).1 ts.tail ∧ (extraParam cfg is 0).2 = param ts 0 := by
  cases ts with
  | nil =>
    have hend : (is.int cfg).1.failed = true := by
      rcases h with ⟨-, hnone⟩ | ⟨hfailed, -⟩
      · exact number_end hnone
      · rw [Stream.int, Stream.number, if_pos hfailed]
        exact hfailed
    unfold extraParam
    dsimp only
    rw [if_pos hend]
    exact ⟨.inr ⟨hend, rfl⟩, rfl⟩
  | cons t ts =>
    rcases h with ⟨hfailed, htokens⟩ | ⟨-, hnone⟩
    · rw [List.all_cons, Bool.and_eq_true, Option.isSome_iff_exists] at hts
      obtain ⟨x, hx⟩ := hts.1
      obtain ⟨hread, hbreak, hstored⟩ := (int_token cfg hfailed htokens x).1.mp hx
      unfold extraParam
      dsimp only
      rw [if_neg (by simp [hread]), hstored]
      refine ⟨.inl ⟨hread, (int_token cfg hfailed htokens x).2 hbreak⟩, ?_⟩
      simp [param, hx]
    · cases hnone

theorem param_tail (ts : List (List Char)) (i : ℕ) : param ts.tail i = param ts (i + 1) := by
  simp [param]

theorem all_tail (hts : ts.all (fun t => (intToken t).isSome) = true) :
    ts.tail.all (fun t => (intToken t).isSome) = true :=
  List.all_eq_true.mpr fun t ht => List.all_eq_true.mp hts t (List.mem_of_mem_tail ht)

theorem tcpRule_left (h : Left is ts) (hts : ts.all (fun t => (intToken t).isSome) = true) (vars : Vars) :
    tcpRule cfg is vars = ⟨vars.srcPort, ⟨vars.ipAddr, vars.dstPort⟩, param ts 0, param ts 1⟩ := by
  obtain ⟨hleft, hbandwidth⟩ := extraParam_left cfg h hts
  obtain ⟨-, hdelay⟩ := extraParam_left cfg hleft (all_tail hts)
  unfold tcpRule
  dsimp only
  rw [hbandwidth, hdelay, param_tail]

theorem udpRule_left (h : Left is ts) (hts : ts.all (fun t => (intToken t).isSome) = true) (vars : Vars) :
    udpRule cfg is vars =
      ⟨vars.srcPort, ⟨vars.ipAddr, vars.dstPort⟩, param ts 0, param ts 1, param ts 2⟩ := by
  obtain ⟨hleft, hbandwidth⟩ := extraParam_left cfg h hts
  obtain ⟨hleft', hdelay⟩ := extraParam_left cfg hleft (all_tail hts)
  obtain ⟨-, hdrop⟩ := extraParam_left cfg hleft' (all_tail (all_tail hts))
  unfold udpRule
  dsimp only
  rw [hbandwidth, hdelay, hdrop, param_tail, param_tail, param_tail]

end streams

section fields

variable {cfg : Config} {is is' : Stream} {vars : Vars} {n : ℕ}

structure EndpointRead (cfg : Config) (is is' : Stream) (srcPort : ℕ) (dstIp : List Char) (ipAddr : Address)
    (dstPort : ℕ) : Prop where
  src_read : (is.uint16 cfg).1.failed = false
  src_stored : (is.uint16 cfg).2 = some srcPort
  ip_read : (is.uint16 cfg).1.word.1.failed = false
  ip_stored : (is.uint16 cfg).1.word.2 = some dstIp
  parsed : cfg.fromString dstIp = some ipAddr
  dst_read : ((is.uint16 cfg).1.word.1.uint16 cfg).1.failed = false
  dst_stored : ((is.uint16 cfg).1.word.1.uint16 cfg).2 = some dstPort
  left : is' = ((is.uint16 cfg).1.word.1.uint16 cfg).1

theorem EndpointRead.result {srcPort dstPort : ℕ} {dstIp : List Char} {ipAddr : Address}
    (h : EndpointRead cfg is is' srcPort dstIp ipAddr dstPort) (vars : Vars) :
    readEndpoint cfg is vars =
      ({ vars with srcPort := srcPort, dstIp := dstIp, ipAddr := ipAddr, dstPort := dstPort }, some is') := by
  unfold readEndpoint
  dsimp only
  rw [h.src_read, h.src_stored, h.ip_read, h.ip_stored, if_neg (by simp), if_neg (by simp)]
  simp only [Option.getD_some, h.parsed, h.dst_read, h.dst_stored, h.left, Bool.false_eq_true, if_false]

theorem readEndpoint_some (h : (readEndpoint cfg is vars).2 = some is') :
    ∃ srcPort dstIp ipAddr dstPort, EndpointRead cfg is is' srcPort dstIp ipAddr dstPort := by
  unfold readEndpoint at h
  dsimp only at h
  split at h
  · cases h
  next hsrc =>
    have hsrc' : (is.uint16 cfg).1.failed = false := by simpa using hsrc
    obtain ⟨srcPort, hsrcPort⟩ := number_stored is hsrc'
    split at h
    · cases h
    next hip =>
      have hip' : (is.uint16 cfg).1.word.1.failed = false := by simpa using hip
      obtain ⟨dstIp, hdstIp⟩ := word_stored _ hip'
      rw [hdstIp, Option.getD_some] at h
      split at h
      · cases h
      next a ha =>
        by_cases hdst : ((is.uint16 cfg).1.word.1.uint16 cfg).1.failed
        · simp [hdst] at h
        · have hdst' : ((is.uint16 cfg).1.word.1.uint16 cfg).1.failed = false := by simpa using hdst
          obtain ⟨dstPort, hdstPort⟩ := number_stored _ hdst'
          rw [if_neg hdst, Option.some.injEq] at h
          exact ⟨srcPort, dstIp, a, dstPort, hsrc', hsrcPort, hip', hdstIp, ha, hdst', hdstPort, h.symm⟩

theorem wholePort_break (h : is.wholePort cfg = true) : (is.uint16 cfg).1.atBreak = true := by
  rw [Stream.wholePort, Bool.and_eq_true] at h
  exact h.1

theorem EndpointRead.documented {srcPort dstPort : ℕ} {dstIp : List Char} {ipAddr : Address}
    (h : EndpointRead cfg is is' srcPort dstIp ipAddr dstPort) (hfailed : is.failed = false)
    (hwhole : is.wholeEndpoint cfg n = true) :
    endpointMeaning cfg.fromString n (tokens is.rest) =
      some (srcPort, ⟨ipAddr, dstPort⟩, tokens is'.rest) ∧ paramTokens n (tokens is'.rest) = true := by
  rw [Stream.wholeEndpoint, Bool.and_eq_true, Bool.and_eq_true] at hwhole
  obtain ⟨⟨hsrc, hdst⟩, hparams⟩ := hwhole
  cases htokens : tokens is.rest with
  | nil =>
    have hend : (is.uint16 cfg).1.failed = true := number_end htokens
    rw [h.src_read] at hend
    cases hend
  | cons s ts =>
    obtain ⟨hport, hrest⟩ := uint16_token cfg hfailed htokens srcPort
    have hs := hport.mpr ⟨h.src_read, hsrc, h.src_stored⟩
    have hts := hrest (wholePort_break hsrc)
    cases ts with
    | nil =>
      have hend := word_end hts
      rw [h.ip_read] at hend
      cases hend
    | cons w us =>
      obtain ⟨-, hword, hus⟩ := word_token h.src_read hts
      rw [h.ip_stored, Option.some.injEq] at hword
      cases us with
      | nil =>
        have hend : ((is.uint16 cfg).1.word.1.uint16 cfg).1.failed = true := number_end hus
        rw [h.dst_read] at hend
        cases hend
      | cons d ps =>
        obtain ⟨hport', hrest'⟩ := uint16_token cfg h.ip_read hus dstPort
        have hd := hport'.mpr ⟨h.dst_read, hdst, h.dst_stored⟩
        have hps := hrest' (wholePort_break hdst)
        rw [wholeParams_iff cfg h.dst_read, hps] at hparams
        rw [h.left, hps]
        refine ⟨?_, hparams⟩
        simp [endpointMeaning, hs, ← hword, h.parsed, hd, hparams]

theorem endpointMeaning_some {fields : List (List Char)} {srcPort : ℕ} {dst : Endpoint} {params : List (List Char)}
    (h : endpointMeaning cfg.fromString n fields = some (srcPort, dst, params)) : ∃ s w d,
    fields = s :: w :: d :: params ∧ portToken s = some srcPort ∧ cfg.fromString w = some dst.address ∧
      portToken d = some dst.port ∧ paramTokens n params = true := by
  unfold endpointMeaning at h
  split at h
  next s w d ps =>
    simp only [Option.bind_eq_bind, Option.bind_eq_some_iff] at h
    obtain ⟨p, hs, a, hw, q, hd, h⟩ := h
    split at h
    next hparams =>
      cases h
      exact ⟨s, w, d, rfl, hs, hw, hd, hparams⟩
    · cases h
  · cases h

theorem endpoint_read {srcPort : ℕ} {dst : Endpoint} {params : List (List Char)} (hfailed : is.failed = false)
    (h : endpointMeaning cfg.fromString n (tokens is.rest) = some (srcPort, dst, params)) :
    is.wholeEndpoint cfg n = true ∧ ∃ is' dstIp,
      EndpointRead cfg is is' srcPort dstIp dst.address dst.port ∧ tokens is'.rest = params := by
  obtain ⟨s, w, d, htokens, hs, hw, hd, hparams⟩ := endpointMeaning_some h
  obtain ⟨hport, hrest⟩ := uint16_token cfg hfailed htokens srcPort
  obtain ⟨hsrc, hwhole, hstored⟩ := hport.mp hs
  obtain ⟨hip, hword, hus⟩ := word_token hsrc (hrest (wholePort_break hwhole))
  obtain ⟨hport', hrest'⟩ := uint16_token cfg hip hus dst.port
  obtain ⟨hdst, hwhole', hstored'⟩ := hport'.mp hd
  have hps := hrest' (wholePort_break hwhole')
  refine ⟨?_, _, w, ⟨hsrc, hstored, hip, hword, hw, hdst, hstored', rfl⟩, hps⟩
  rw [Stream.wholeEndpoint, hwhole, hwhole', (wholeParams_iff cfg hdst n).mpr (by rw [hps]; exact hparams)]
  rfl

theorem ip_documented (hfailed : is.failed = false) (hsend : (is.int cfg).1.failed = false)
    (hrecv : ((is.int cfg).1.int cfg).1.failed = false) (hwhole : is.wholeIp cfg = true) : ∃ x y,
    ipMeaning (tokens is.rest) = some (.ip x y) ∧ (is.int cfg).2 = some x ∧
      ((is.int cfg).1.int cfg).2 = some y := by
  rw [Stream.wholeIp, Bool.and_eq_true, spent_iff] at hwhole
  obtain ⟨hbreak, hspent⟩ := hwhole
  cases htokens : tokens is.rest with
  | nil =>
    have hend : (is.int cfg).1.failed = true := number_end htokens
    rw [hsend] at hend
    cases hend
  | cons s ts =>
    obtain ⟨x, hx⟩ := number_stored is hsend
    have hs := (int_token cfg hfailed htokens x).1.mpr ⟨hsend, hbreak, hx⟩
    have hts := (int_token cfg hfailed htokens x).2 hbreak
    cases ts with
    | nil =>
      have hend : ((is.int cfg).1.int cfg).1.failed = true := number_end hts
      rw [hrecv] at hend
      cases hend
    | cons r us =>
      obtain ⟨y, hy⟩ := number_stored _ hrecv
      have hbreak' : ((is.int cfg).1.int cfg).1.atBreak = true := by
        rw [atBreak_iff]
        have hblank := spent_iff.mpr hspent
        unfold Stream.spent at hblank
        cases hrest : ((is.int cfg).1.int cfg).1.rest with
        | nil => rfl
        | cons c rest =>
          rw [hrest, List.all_cons, Bool.and_eq_true] at hblank
          simp [hblank.1]
      have hr := (int_token cfg hsend hts y).1.mpr ⟨hrecv, hbreak', hy⟩
      have hus := (int_token cfg hsend hts y).2 hbreak'
      rw [hspent] at hus
      subst hus
      exact ⟨x, y, by simp [ipMeaning, hs, hr], hx, hy⟩

theorem ip_read {m : Meaning} (hfailed : is.failed = false) (h : ipMeaning (tokens is.rest) = some m) :
    is.wholeIp cfg = true := by
  unfold ipMeaning at h
  split at h
  next s r htokens =>
    simp only [Option.bind_eq_bind, Option.bind_eq_some_iff] at h
    obtain ⟨x, hs, y, hr, -⟩ := h
    obtain ⟨hsend, hbreak, -⟩ := (int_token cfg hfailed htokens x).1.mp hs
    have hts := (int_token cfg hfailed htokens x).2 hbreak
    obtain ⟨-, hbreak', -⟩ := (int_token cfg hsend hts y).1.mp hr
    rw [Stream.wholeIp, hbreak, Bool.true_and, spent_iff]
    exact (int_token cfg hsend hts y).2 hbreak'
  · cases h

end fields

section lines

variable {cfg : Config} {line : Line} {is is' : Stream} {vars : Vars} {rules : Rules}

def Named (line : Line) (proto : List Char) (is : Stream) : Prop :=
  Stream.word ⟨line, false⟩ = (is, some proto) ∧ is.failed = false

theorem Named.tokens_eq {proto : List Char} (h : Named line proto is) :
    tokens line = proto :: tokens is.rest := by
  cases htokens : tokens line with
  | nil =>
    have hend := @word_end ⟨line, false⟩ htokens
    rw [h.1, h.2] at hend
    cases hend
  | cons t ts =>
    obtain ⟨-, hword, hts⟩ := @word_token ⟨line, false⟩ t ts rfl htokens
    rw [h.1] at hword hts
    cases hword
    rw [← hts]

theorem readLine_ip {x y : ℤ} (h : Named line ['i', 'p'] is) (hsend : (is.int cfg).1.failed = false)
    (hrecv : ((is.int cfg).1.int cfg).1.failed = false) (hx : (is.int cfg).2 = some x)
    (hy : ((is.int cfg).1.int cfg).2 = some y) :
    effect (readLine cfg line vars rules) = (x, y, rules, .done) := by
  unfold readLine
  dsimp only
  rw [h.1]
  dsimp only
  rw [h.2, if_neg (by simp), Option.getD_some, if_pos rfl]
  simp [effect, readIp, hsend, hrecv, hx, hy]

theorem readLine_tcp {srcPort dstPort : ℕ} {dstIp : List Char} {ipAddr : Address}
    (h : Named line ['t', 'c', 'p'] is) (hread : EndpointRead cfg is is' srcPort dstIp ipAddr dstPort)
    (hparams : paramTokens 2 (tokens is'.rest) = true) :
    effect (readLine cfg line vars rules) = (vars.ipSendBandwidth, vars.ipRecvBandwidth, rules.startTcp cfg
      ⟨srcPort, ⟨ipAddr, dstPort⟩, param (tokens is'.rest) 0, param (tokens is'.rest) 1⟩) := by
  rw [paramTokens, Bool.and_eq_true] at hparams
  have hleft : Left is' (tokens is'.rest) := .inl ⟨by rw [hread.left]; exact hread.dst_read, rfl⟩
  unfold readLine
  dsimp only
  rw [h.1]
  dsimp only
  rw [h.2, if_neg (by simp), Option.getD_some, if_neg (by decide), if_pos rfl, hread.result]
  simp [effect, tcpRule_left hleft hparams.2]

theorem readLine_udp {srcPort dstPort : ℕ} {dstIp : List Char} {ipAddr : Address}
    (h : Named line ['u', 'd', 'p'] is) (hread : EndpointRead cfg is is' srcPort dstIp ipAddr dstPort)
    (hparams : paramTokens 3 (tokens is'.rest) = true) :
    effect (readLine cfg line vars rules) = (vars.ipSendBandwidth, vars.ipRecvBandwidth, rules.addUdp
      ⟨srcPort, ⟨ipAddr, dstPort⟩, param (tokens is'.rest) 0, param (tokens is'.rest) 1,
        param (tokens is'.rest) 2⟩, .done) := by
  rw [paramTokens, Bool.and_eq_true] at hparams
  have hleft : Left is' (tokens is'.rest) := .inl ⟨by rw [hread.left]; exact hread.dst_read, rfl⟩
  unfold readLine
  dsimp only
  rw [h.1]
  dsimp only
  rw [h.2, if_neg (by simp), Option.getD_some, if_neg (by decide), if_neg (by decide), if_pos rfl, hread.result]
  simp [effect, udpRule_left hleft hparams.2]

inductive Fields (cfg : Config) (line : Line) (is : Stream) : Prop
  | ip (named : Named line ['i', 'p'] is) (send : (is.int cfg).1.failed = false)
      (recv : ((is.int cfg).1.int cfg).1.failed = false)
  | tcp {is' : Stream} {srcPort dstPort : ℕ} {dstIp : List Char} {ipAddr : Address}
      (named : Named line ['t', 'c', 'p'] is) (read : EndpointRead cfg is is' srcPort dstIp ipAddr dstPort)
  | udp {is' : Stream} {srcPort dstPort : ℕ} {dstIp : List Char} {ipAddr : Address}
      (named : Named line ['u', 'd', 'p'] is) (read : EndpointRead cfg is is' srcPort dstIp ipAddr dstPort)

theorem fields_of_read (h : (readLine cfg line vars rules).2.2 ≠ .formatError) : ∃ is, Fields cfg line is := by
  unfold readLine at h
  dsimp only at h
  split at h
  · exact absurd rfl h
  next hfailed =>
    have hfailed' : (Stream.word ⟨line, false⟩).1.failed = false := by simpa using hfailed
    obtain ⟨proto, hproto⟩ := word_stored _ hfailed'
    have hnamed : Named line proto (Stream.word ⟨line, false⟩).1 := ⟨by rw [← hproto], hfailed'⟩
    refine ⟨(Stream.word ⟨line, false⟩).1, ?_⟩
    rw [hproto, Option.getD_some] at h
    split at h
    next hip =>
      subst hip
      unfold readIp at h
      dsimp only at h
      split at h
      · exact absurd rfl h
      next hsend =>
        split at h
        · exact absurd rfl h
        next hrecv => exact .ip hnamed (by simpa using hsend) (by simpa using hrecv)
    next =>
      split at h
      next htcp =>
        subst htcp
        cases hread : (readEndpoint cfg (Stream.word ⟨line, false⟩).1
            { vars with proto := ['t', 'c', 'p'] }).2 with
        | none =>
          rw [hread] at h
          exact absurd rfl h
        | some is' =>
          obtain ⟨srcPort, dstIp, ipAddr, dstPort, hread⟩ := readEndpoint_some hread
          exact .tcp hnamed hread
      next =>
        split at h
        next hudp =>
          subst hudp
          cases hread : (readEndpoint cfg (Stream.word ⟨line, false⟩).1
              { vars with proto := ['u', 'd', 'p'] }).2 with
          | none =>
            rw [hread] at h
            exact absurd rfl h
          | some is' =>
            obtain ⟨srcPort, dstIp, ipAddr, dstPort, hread⟩ := readEndpoint_some hread
            exact .udp hnamed hread
        next => exact absurd rfl h

theorem Fields.accepted (h : Fields cfg line is) : (readLine cfg line vars rules).2.2 ≠ .formatError := by
  cases h with
  | ip named send recv =>
    obtain ⟨x, hx⟩ := number_stored is send
    obtain ⟨y, hy⟩ := number_stored _ recv
    have heffect := @readLine_ip cfg line is vars rules x y named send recv hx hy
    rw [show (readLine cfg line vars rules).2.2 = .done from congrArg (fun r => r.2.2.2) heffect]
    simp
  | tcp named read =>
    unfold readLine
    dsimp only
    rw [named.1]
    dsimp only
    rw [named.2, if_neg (by simp), Option.getD_some, if_neg (by decide), if_pos rfl, read.result]
    exact startTcp_outcome _ rules
  | udp named read =>
    unfold readLine
    dsimp only
    rw [named.1]
    dsimp only
    rw [named.2, if_neg (by simp), Option.getD_some, if_neg (by decide), if_neg (by decide), if_pos rfl, read.result]
    simp

theorem whole_of_meaning {m : Meaning} (h : Fields cfg line is)
    (hm : meaning cfg.fromString (tokens line) = some m) : wholeFields cfg line = true := by
  cases h with
  | ip named send recv =>
    rw [named.tokens_eq, meaning, if_pos rfl] at hm
    rw [wholeFields, named.1]
    exact ip_read named.2 hm
  | tcp named read =>
    rw [named.tokens_eq, meaning, if_neg (by decide), if_pos rfl, Option.map_eq_some_iff] at hm
    obtain ⟨⟨srcPort, dst, params⟩, hendpoint, -⟩ := hm
    rw [wholeFields, named.1]
    exact (endpoint_read named.2 hendpoint).1
  | udp named read =>
    rw [named.tokens_eq, meaning, if_neg (by decide), if_neg (by decide), if_pos rfl,
      Option.map_eq_some_iff] at hm
    obtain ⟨⟨srcPort, dst, params⟩, hendpoint, -⟩ := hm
    rw [wholeFields, named.1]
    exact (endpoint_read named.2 hendpoint).1

theorem meaning_of_whole (h : Fields cfg line is) (hwhole : wholeFields cfg line = true) : ∃ m,
    meaning cfg.fromString (tokens line) = some m ∧
      ∀ vars rules, effect (readLine cfg line vars rules) = m.effect cfg vars rules := by
  cases h with
  | ip named send recv =>
    rw [wholeFields, named.1] at hwhole
    obtain ⟨x, y, hm, hx, hy⟩ := ip_documented named.2 send recv hwhole
    refine ⟨.ip x y, ?_, fun vars rules => readLine_ip named send recv hx hy⟩
    rw [named.tokens_eq, meaning, if_pos rfl, hm]
  | tcp named read =>
    rw [wholeFields, named.1] at hwhole
    obtain ⟨hendpoint, hparams⟩ := read.documented named.2 hwhole
    refine ⟨.tcp _, ?_, fun vars rules => readLine_tcp named read hparams⟩
    rw [named.tokens_eq, meaning, if_neg (by decide), if_pos rfl, hendpoint]
    rfl
  | udp named read =>
    rw [wholeFields, named.1] at hwhole
    obtain ⟨hendpoint, hparams⟩ := read.documented named.2 hwhole
    refine ⟨.udp _, ?_, fun vars rules => readLine_udp named read hparams⟩
    rw [named.tokens_eq, meaning, if_neg (by decide), if_neg (by decide), if_pos rfl, hendpoint]
    rfl

theorem named_of_tokens {proto : List Char} {fields : List (List Char)}
    (h : tokens line = proto :: fields) : ∃ is, Named line proto is ∧ tokens is.rest = fields := by
  obtain ⟨hread, hstored, hrest⟩ := @word_token ⟨line, false⟩ proto fields rfl h
  exact ⟨_, ⟨Prod.ext rfl hstored, hread⟩, hrest⟩

theorem fields_of_meaning {m : Meaning} (hm : meaning cfg.fromString (tokens line) = some m) :
    ∃ is, Fields cfg line is := by
  cases htokens : tokens line with
  | nil =>
    rw [htokens] at hm
    cases hm
  | cons proto fields =>
    obtain ⟨is, hnamed, hrest⟩ := named_of_tokens htokens
    refine ⟨is, ?_⟩
    rw [htokens, meaning, ← hrest] at hm
    split at hm
    next hip =>
      subst hip
      unfold ipMeaning at hm
      split at hm
      next s r hfields =>
        simp only [Option.bind_eq_bind, Option.bind_eq_some_iff] at hm
        obtain ⟨x, hs, y, hr, -⟩ := hm
        obtain ⟨hsend, hbreak, -⟩ := (int_token cfg hnamed.2 hfields x).1.mp hs
        have hts := (int_token cfg hnamed.2 hfields x).2 hbreak
        exact .ip hnamed hsend ((int_token cfg hsend hts y).1.mp hr).1
      · cases hm
    · split at hm
      next htcp =>
        subst htcp
        obtain ⟨⟨srcPort, dst, params⟩, hendpoint, -⟩ := Option.map_eq_some_iff.mp hm
        obtain ⟨-, is', dstIp, hread, -⟩ := endpoint_read hnamed.2 hendpoint
        exact .tcp hnamed hread
      · split at hm
        next hudp =>
          subst hudp
          obtain ⟨⟨srcPort, dst, params⟩, hendpoint, -⟩ := Option.map_eq_some_iff.mp hm
          obtain ⟨-, is', dstIp, hread, -⟩ := endpoint_read hnamed.2 hendpoint
          exact .udp hnamed hread
        · cases hm

theorem readLine_of_meaning {m : Meaning} (hm : meaning cfg.fromString (tokens line) = some m)
    (vars : Vars) (rules : Rules) :
    effect (readLine cfg line vars rules) = m.effect cfg vars rules := by
  obtain ⟨is, hfields⟩ := fields_of_meaning hm
  obtain ⟨m', hm', heffect⟩ := meaning_of_whole hfields (whole_of_meaning hfields hm)
  rw [hm, Option.some.injEq] at hm'
  rw [hm']
  exact heffect vars rules

end lines

theorem rejected_eq_false_iff {cfg : Config} {line : Line} (hskipped : skipped (trim line) = false) :
    rejected cfg line = false ↔ ∃ is, Fields cfg (trim line) is := by
  rw [← Bool.not_eq_true, rejected_iff hskipped blank .empty]
  constructor
  · exact fields_of_read
  · rintro ⟨is, hfields⟩
    exact hfields.accepted

theorem documented_iff (cfg : Config) {line : Line} (hskipped : skipped (trim line) = false) :
    Documented cfg line ↔ ∀ is, Fields cfg (trim line) is → wholeFields cfg (trim line) = true := by
  have hrejected := @rejected_eq_false_iff cfg line hskipped
  unfold Documented
  rw [← tokens_trim]
  constructor
  · rintro (h | ⟨m, hm, -⟩) is hfields
    · rw [hrejected.mpr ⟨is, hfields⟩] at h
      cases h
    · exact whole_of_meaning hfields hm
  · intro hwhole
    cases h : rejected cfg line with
    | true => exact .inl rfl
    | false =>
      obtain ⟨is, hfields⟩ := hrejected.mp h
      exact .inr (meaning_of_whole hfields (hwhole is hfields))

def tcpLine (params : List Char) : Line :=
  ['t', 'c', 'p', ' ', '1', ' '] ++ addressText ++ [' ', '2', ' '] ++ params

theorem documented_iff_limited : Documented resolving (tcpLine ['5', '0']) :=
  (documented_iff resolving rfl).mpr fun _ _ => by decide

/-- `tcp 1 10.0.0.1 2 x` forwards without a limit. -/
theorem malformed_parameter_defaults : ¬ ∀ (cfg : Config) (line : Line),
    skipped (trim line) = false → Documented cfg line := by
  intro hclaim
  rcases hclaim resolving (tcpLine ['x']) rfl with hrejected | ⟨m, hm, -⟩
  · exact absurd hrejected (by decide)
  · have hnone : meaning resolving.fromString (tokens (tcpLine ['x'])) = none := rfl
    rw [hnone] at hm
    cases hm

section documents

variable {cfg : Config} {line : Line}

def lineMeaning (cfg : Config) (line : Line) : Option Meaning :=
  if skipped (trim line) then none else meaning cfg.fromString (tokens line)

def Meaning.load (cfg : Config) (loaded : ℤ × ℤ × Rules) : Meaning → ℤ × ℤ × Rules
  | .ip sendBandwidth recvBandwidth => (sendBandwidth, recvBandwidth, loaded.2.2)
  | .tcp rule => (loaded.1, loaded.2.1, (loaded.2.2.startTcp cfg rule).1)
  | .udp rule => (loaded.1, loaded.2.1, loaded.2.2.addUdp rule)

/-- The bandwidths and the rules that the lines of a documented configuration stand for. -/
def document (cfg : Config) (lines : List Line) : ℤ × ℤ × Rules :=
  (lines.filterMap (lineMeaning cfg)).foldl (Meaning.load cfg) (0, 0, .empty)

def State.loaded (s : State) : ℤ × ℤ × Rules := (s.vars.ipSendBandwidth, s.vars.ipRecvBandwidth, s.rules)

def Conforms (cfg : Config) (line : Line) : Prop :=
  skipped (trim line) = true ∨ (meaning cfg.fromString (tokens line)).isSome = true

instance (cfg : Config) (line : Line) : Decidable (Conforms cfg line) := inferInstanceAs (Decidable (_ ∨ _))

theorem effect_meaning {m : Meaning} (hm : meaning cfg.fromString (tokens line) = some m) (vars : Vars)
    (rules : Rules) : effect (readLine cfg (trim line) vars rules) = m.effect cfg vars rules := by
  rw [← tokens_trim] at hm
  exact readLine_of_meaning hm vars rules

theorem loaded_handleLine (h : Conforms cfg line) (s : State) :
    (handleLine cfg s line).loaded = (lineMeaning cfg line).toList.foldl (Meaning.load cfg) s.loaded := by
  unfold handleLine lineMeaning
  by_cases hskipped : skipped (trim line) = true
  · simp [hskipped, State.loaded]
  · obtain ⟨m, hm⟩ := Option.isSome_iff_exists.mp (h.resolve_left hskipped)
    have heffect := effect_meaning hm s.vars s.rules
    simp only [hskipped, hm, Bool.false_eq_true, if_false, Option.toList_some, List.foldl_cons, List.foldl_nil]
    cases m with
    | ip | tcp | udp => simp_all [effect, Meaning.effect, Meaning.load, State.loaded, Prod.ext_iff]

theorem Meaning.effect_ne (m : Meaning) (vars : Vars) (rules : Rules) :
    (m.effect cfg vars rules).2.2.2 ≠ .formatError := by
  cases m with
  | ip | udp => nofun
  | tcp rule =>
    unfold Meaning.effect Rules.startTcp
    dsimp only
    split <;> nofun

theorem rejected_of_conforms (h : Conforms cfg line) : rejected cfg line = false := by
  unfold rejected
  rcases h with hskipped | hdocumented
  · simp [hskipped]
  · obtain ⟨m, hm⟩ := Option.isSome_iff_exists.mp hdocumented
    have houtcome : (readLine cfg (trim line) blank .empty).2.2 = (m.effect cfg blank .empty).2.2.2 :=
      congrArg (fun r => r.2.2.2) (effect_meaning hm blank .empty)
    rw [houtcome]
    simp [m.effect_ne]

theorem document_concat (cfg : Config) (lines : List Line) (line : Line) : document cfg (lines ++ [line]) =
    (lineMeaning cfg line).toList.foldl (Meaning.load cfg) (document cfg lines) := by
  unfold document
  rw [List.filterMap_append, List.foldl_append]
  rfl

/-- A configuration of blank lines, comments and documented lines is loaded as it is documented, and no line
of it is reported. -/
theorem run_documented (cfg : Config) (vars : Vars) {lines : List Line} (h : ∀ line ∈ lines, Conforms cfg line) :
    (run cfg vars lines).loaded = document cfg lines ∧
      ∀ n text, .formatError n text ∉ (run cfg vars lines).reports := by
  induction lines using List.reverseRecOn with
  | nil => exact ⟨rfl, fun n text hreport => nomatch hreport⟩
  | append_singleton lines line ih =>
    obtain ⟨hloaded, hreports⟩ := ih fun line' hline => h line' (List.mem_append_left _ hline)
    have hline : Conforms cfg line := h line (List.mem_append_right _ (List.mem_singleton_self _))
    rw [run_concat]
    constructor
    · rw [loaded_handleLine hline, hloaded, document_concat]
    · intro n text hreport
      rcases (formatError_handleLine cfg _ line n text).mp hreport with hold | ⟨hrejected, -⟩
      · exact hreports n text hold
      · rw [rejected_of_conforms hline] at hrejected
        cases hrejected

/-- A limit, a comment and a rule of each kind. -/
def mixedLines : List Line :=
  [['i', 'p', ' ', '5', ' ', '7'], ['#', 'x'], tcpLine ['5', '0', ' ', '9'],
    [' ', 'u', 'd', 'p', ' ', '3', '\t'] ++ addressText ++ [' ', '4']]

theorem run_documented_mixed : document resolving mixedLines =
      (5, 7, ⟨[⟨1, ⟨1, 2⟩, 50, 9⟩], [⟨1, ⟨1, 2⟩, 50, 9⟩], [⟨3, ⟨1, 4⟩, 0, 0, 0⟩]⟩) ∧
    (run resolving blank mixedLines).loaded = document resolving mixedLines ∧
      ∀ n text, .formatError n text ∉ (run resolving blank mixedLines).reports :=
  ⟨by decide, run_documented resolving blank (by decide)⟩

end documents

end TcpUdpProxy.SharedData
