import TcpUdpProxy.Common
import TcpUdpProxy.Library.LastWrite

/-!
`SharedData::init`, on the lines of a configuration file. A stream is what is left of its line; an
extraction gives what it stores, so that a variable keeps its value where nothing is stored.
-/

namespace TcpUdpProxy.SharedData

abbrev Line := List Char

def isSpace (c : Char) : Bool := c ∈ [' ', '\t', '\n', '\x0b', '\x0c', '\r']

def trim (line : Line) : Line := (line.dropWhile isSpace).rdropWhile isSpace

/-- `fromString` and `started` are the parts of asio; `zeroAtEnd` tells whether a number that is asked
for at the end of a line is set to zero or left as it is. -/
structure Config where
  fromString : List Char → Option Address
  started : List TcpProxyRule → TcpProxyRule → Bool
  zeroAtEnd : Bool

structure Stream where
  rest : List Char
  failed : Bool

def decimal (digits : List Char) : ℕ := digits.foldl (fun n c => 10 * n + (c.toNat - '0'.toNat)) 0

/-- A number that is out of range fails and stores the limit. -/
def convertInt (negative : Bool) (magnitude : ℕ) : ℤ × Bool :=
  if negative then if magnitude ≤ 2147483648 then (-magnitude, true) else (-2147483648, false)
  else if magnitude ≤ 2147483647 then (magnitude, true) else (2147483647, false)

def convertUint16 (negative : Bool) (magnitude : ℕ) : ℕ × Bool :=
  if magnitude ≤ 65535 then (if negative then (65536 - magnitude) % 65536 else magnitude, true)
  else (65535, false)

namespace Stream

def sign : List Char → Bool × List Char
  | '-' :: rest => (true, rest)
  | '+' :: rest => (false, rest)
  | rest => (false, rest)

def number {α : Type} (cfg : Config) (zero : α) (convert : Bool → ℕ → α × Bool) (is : Stream) :
    Stream × Option α :=
  if is.failed then (is, none)
  else
    match is.rest.dropWhile isSpace with
    | [] => (⟨[], true⟩, if cfg.zeroAtEnd then some zero else none)
    | first :: rest =>
      let (negative, rest) := sign (first :: rest)
      let digits := rest.takeWhile Char.isDigit
      let rest := rest.dropWhile Char.isDigit
      if digits = [] then (⟨rest, true⟩, some zero)
      else
        let (value, ok) := convert negative (decimal digits)
        (⟨rest, !ok⟩, some value)

def int (cfg : Config) (is : Stream) : Stream × Option ℤ := is.number cfg 0 convertInt

def uint16 (cfg : Config) (is : Stream) : Stream × Option ℕ := is.number cfg 0 convertUint16

def word (is : Stream) : Stream × Option (List Char) :=
  if is.failed then (is, none)
  else
    match is.rest.dropWhile isSpace with
    | [] => (⟨[], true⟩, none)
    | first :: rest =>
      (⟨(first :: rest).dropWhile fun c => !isSpace c, false⟩,
        some ((first :: rest).takeWhile fun c => !isSpace c))

end Stream

structure Vars where
  proto : List Char
  srcPort : ℕ
  dstIp : List Char
  ipAddr : Address
  dstPort : ℕ
  ipSendBandwidth : ℤ
  ipRecvBandwidth : ℤ

inductive Report
  | formatError (lineNum : ℕ) (line : Line)
  | startError (lineNum : ℕ) (line : Line)
  deriving DecidableEq

/-- What `init` has built; `attempts` are the rules whose `start` was called. -/
structure Rules where
  attempts : List TcpProxyRule
  proxies : List TcpProxyRule
  udpRules : List UdpProxyRule
  deriving DecidableEq

structure State where
  lineNum : ℕ
  vars : Vars
  rules : Rules
  reports : List Report

inductive Outcome
  | done
  | formatError
  | startError
  deriving DecidableEq

def readIp (cfg : Config) (is : Stream) (vars : Vars) : Vars × Outcome :=
  let (is, stored) := is.int cfg
  let vars := { vars with ipSendBandwidth := stored.getD vars.ipSendBandwidth }
  if is.failed then (vars, .formatError)
  else
    let (is, stored) := is.int cfg
    let vars := { vars with ipRecvBandwidth := stored.getD vars.ipRecvBandwidth }
    (vars, if is.failed then .formatError else .done)

def readEndpoint (cfg : Config) (is : Stream) (vars : Vars) : Vars × Option Stream :=
  let (is, stored) := is.uint16 cfg
  let vars := { vars with srcPort := stored.getD vars.srcPort }
  if is.failed then (vars, none)
  else
    let (is, stored) := is.word
    let vars := { vars with dstIp := stored.getD vars.dstIp }
    if is.failed then (vars, none)
    else
      match cfg.fromString vars.dstIp with
      | none => ({ vars with ipAddr := 0 }, none)
      | some a =>
        let (is, stored) := is.uint16 cfg
        let vars := { vars with ipAddr := a, dstPort := stored.getD vars.dstPort }
        (vars, if is.failed then none else some is)

def extraParam (cfg : Config) (is : Stream) (default : ℤ) : Stream × ℤ :=
  let (is, stored) := is.int cfg
  (is, if is.failed then default else stored.getD default)

def tcpRule (cfg : Config) (is : Stream) (vars : Vars) : TcpProxyRule :=
  let (is, maxBandwidth) := extraParam cfg is 0
  let (_, delayMs) := extraParam cfg is 0
  ⟨vars.srcPort, ⟨vars.ipAddr, vars.dstPort⟩, maxBandwidth, delayMs⟩

def udpRule (cfg : Config) (is : Stream) (vars : Vars) : UdpProxyRule :=
  let (is, maxBandwidth) := extraParam cfg is 0
  let (is, delayMs) := extraParam cfg is 0
  let (_, dropProb) := extraParam cfg is 0
  ⟨vars.srcPort, ⟨vars.ipAddr, vars.dstPort⟩, maxBandwidth, delayMs, dropProb⟩

def Rules.startTcp (cfg : Config) (rule : TcpProxyRule) (rules : Rules) : Rules × Outcome :=
  if cfg.started rules.attempts rule then
    ({ rules with attempts := rules.attempts ++ [rule], proxies := rules.proxies ++ [rule] }, .done)
  else ({ rules with attempts := rules.attempts ++ [rule] }, .startError)

def Rules.addUdp (rule : UdpProxyRule) (rules : Rules) : Rules :=
  { rules with udpRules := rules.udpRules ++ [rule] }

def readLine (cfg : Config) (line : Line) (vars : Vars) (rules : Rules) : Vars × Rules × Outcome :=
  let (is, stored) := Stream.word ⟨line, false⟩
  let vars := { vars with proto := stored.getD vars.proto }
  if is.failed then (vars, rules, .formatError)
  else if vars.proto = ['i', 'p'] then
    let (vars, outcome) := readIp cfg is vars
    (vars, rules, outcome)
  else if vars.proto = ['t', 'c', 'p'] then
    let (vars, is) := readEndpoint cfg is vars
    (vars, is.elim (rules, .formatError) fun is => rules.startTcp cfg (tcpRule cfg is vars))
  else if vars.proto = ['u', 'd', 'p'] then
    let (vars, is) := readEndpoint cfg is vars
    (vars, is.elim (rules, .formatError) fun is => (rules.addUdp (udpRule cfg is vars), .done))
  else (vars, rules, .formatError)

def report (lineNum : ℕ) (line : Line) : Outcome → List Report
  | .done => []
  | .formatError => [.formatError lineNum line]
  | .startError => [.startError lineNum line]

def skipped (line : Line) : Bool := line.isEmpty || line.head? = some '#'

def handleLine (cfg : Config) (s : State) (line : Line) : State :=
  let lineNum := s.lineNum + 1
  if skipped (trim line) then { s with lineNum := lineNum }
  else
    let (vars, rules, outcome) := readLine cfg (trim line) s.vars s.rules
    ⟨lineNum, vars, rules, s.reports ++ report lineNum (trim line) outcome⟩

structure Result where
  proxies : List TcpProxyRule
  udpRules : List UdpProxyRule
  sendBandwidth : ℤ
  recvBandwidth : ℤ
  deriving DecidableEq

def State.result (s : State) : Result :=
  ⟨s.rules.proxies, s.rules.udpRules, s.vars.ipSendBandwidth, s.vars.ipRecvBandwidth⟩

def Rules.empty : Rules := ⟨[], [], []⟩

/-- `vars` gives the variables that have no initialiser. -/
def start (vars : Vars) : State := ⟨0, { vars with ipSendBandwidth := 0, ipRecvBandwidth := 0 }, .empty, []⟩

def run (cfg : Config) (vars : Vars) (lines : List Line) : State := lines.foldl (handleLine cfg) (start vars)

def init (cfg : Config) (vars : Vars) (lines : List Line) : Result := (run cfg vars lines).result

def addressText : List Char := ['1', '0', '.', '0', '.', '0', '.', '1']

def resolving : Config := ⟨fun text => if text = addressText then some 1 else none, fun _ _ => true, false⟩

end TcpUdpProxy.SharedData
