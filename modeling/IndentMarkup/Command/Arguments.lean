import IndentMarkup.Text.Digit

/-!
# Arguments of a command

A command is given a line of arguments. Options are words that begin with dashes. A long option may be cut
short as long as no other one begins the same way, and holds its value behind an equals sign or in the next
argument. Options of one letter may be written together, the last with its value. What is left are operands,
which stand together in one place; behind two dashes everything is an operand. So are numbers with a minus
sign, the single dash, and what has a space in it. Two dashes in place of the value of an option empty the
option: it is given, but without a value.

The arguments are first sorted into tokens and then taken in order, so that a request for help counts only
if nothing before it is wrong.
-/

namespace IndentMarkup.Command

inductive Given (α : Type) where
  | absent
  /-- The option was given, with two dashes in place of its value. -/
  | emptied
  | value (v : α)
  deriving Repr

def Given.value? {α : Type} : Given α → Option α
  | value v => some v
  | _ => none

inductive Effect (σ : Type) where
  | help
  | flag (apply : σ → σ)
  /-- The option has a value, which may be refused, or is emptied. -/
  | value (apply : Text → σ → Option σ) (empty : σ → σ)

def Effect.setting {σ α : Type} (read : Text → Option α) (set : Given α → σ → σ) : Effect σ :=
  .value (fun s r => (read s).map fun v => set (.value v) r) (set .emptied)

/-- The arguments that a command takes: its options by their words, and its operands if it takes any. -/
structure Form (σ : Type) where
  options : List (Text × Effect σ)
  operands : Option (List Text → σ → σ)

inductive Refusal where
  /-- They ask for help. -/
  | help
  | misuse
  deriving DecidableEq, Repr

/-- What the options in one argument ask for: effects in order, the last option if it still needs its value,
and whether something was left over. -/
structure Request (σ : Type) where
  effects : List (σ → Except Refusal σ)
  missing : Option (Text → σ → Except Refusal σ)
  leftOver : Bool

inductive Token (σ : Type) where
  | operand (s : Text)
  /-- The two dashes in front of the operands. -/
  | dashes
  /-- Options, which may be written in a way that is refused. -/
  | options (r : Except Refusal (Request σ))

section

variable {σ : Type}

/-- An option with its value, or emptied by two dashes. -/
def withValue (apply : Text → σ → Option σ) (empty : σ → σ) (value : Text) (s : σ) : Except Refusal σ :=
  if value = ['-', '-'] then .ok (empty s)
  else
    match apply value s with
    | some s => .ok s
    | none => .error .misuse

/-- What an option asks for. Only an option with a value may have one. -/
def Effect.request : Effect σ → Option Text → Except Refusal (Request σ)
  | value apply empty, some v => .ok ⟨[withValue apply empty v], none, false⟩
  | value apply empty, none => .ok ⟨[], some (withValue apply empty), false⟩
  | help, none => .ok ⟨[fun _ => .error .help], none, false⟩
  | flag apply, none => .ok ⟨[fun s => .ok (apply s)], none, false⟩
  | _, some _ => .error .misuse

def Effect.hasValue : Effect σ → Bool
  | value _ _ => true
  | _ => false

def Request.followedBy (first others : Request σ) : Request σ :=
  { others with effects := first.effects ++ others.effects }

namespace Form

/-- What options of one letter ask for. The first one with a value ends them, and what follows it is the
value. A letter that is no option is refused with all letters in front of it. -/
def lettersRequest (f : Form σ) : Text → Except Refusal (Request σ)
  | [] => .ok ⟨[], none, false⟩
  | c :: r =>
    match f.options.lookup ['-', c], r with
    | none, _ => .error .misuse
    | some effect, [] => effect.request none
    | some effect, r =>
      if effect.hasValue then effect.request (some r)
      else do .ok ((← effect.request none).followedBy (← f.lettersRequest r))

/-- What an option of one letter asks for with a text behind its equals sign. The text is the value of the
option, or further letters if the option has no value. -/
def equalsRequest (f : Form σ) (effect : Effect σ) (behind : Text) : Except Refusal (Request σ) :=
  if effect.hasValue || behind.isEmpty then effect.request (some behind)
  else do .ok ((← effect.request none).followedBy (← f.lettersRequest behind))

/-- Whether a text is a number with a minus sign, possibly with a line feed behind it. -/
def isNegativeNumber (s : Text) : Bool :=
  match s with
  | '-' :: r =>
    let body : Text := if r.getLast? = some '\n' then r.dropLast else r
    let isNumeral (s : Text) : Bool := s.all fun c => (decimalValue? c).isSome
    match body.cutAt? '.' with
    | none => !body.isEmpty && isNumeral body
    | some (whole, fraction) => isNumeral whole && !fraction.isEmpty && isNumeral fraction
  | _ => false

def strange (s : Text) : Token σ :=
  if isNegativeNumber s || s.contains ' ' then .operand s else .options (.ok ⟨[], none, true⟩)

def candidates (f : Form σ) (word : Text) : List (Effect σ) :=
  (f.options.filter fun o => word.isPrefixOf o.1).map (·.2)

/-- The token of an argument that begins with two dashes. A word that may be short for several options is
refused at once. -/
def longToken (f : Form σ) (s : Text) : Except Refusal (Token σ) :=
  match f.options.lookup s with
  | some effect => .ok (.options (effect.request none))
  | none =>
    let (word, value) :=
      match s.cutAt? '=' with
      | some (word, value) => (word, some value)
      | none => (s, none)
    match f.options.lookup word, f.candidates word with
    | some effect, _ => .ok (.options (effect.request value))
    | none, [effect] => .ok (.options (effect.request value))
    | none, [] => .ok (strange s)
    | none, _ => .error .misuse

def token (f : Form σ) (s : Text) : Except Refusal (Token σ) :=
  match s with
  | '-' :: '-' :: _ => f.longToken s
  | '-' :: c :: r =>
    match f.options.lookup ['-', c], r with
    | none, _ => .ok (strange s)
    | some effect, '=' :: behind => .ok (.options (f.equalsRequest effect behind))
    | some _, r => .ok (.options (f.lettersRequest (c :: r)))
  | _ => .ok (.operand s)

def tokens (f : Form σ) : List Text → Except Refusal (List (Token σ))
  | [] => .ok []
  | s :: rest =>
    if s = ['-', '-'] then .ok (.dashes :: rest.map .operand)
    else do
      let t ← f.token s
      .ok (t :: (← f.tokens rest))

end Form

/-- What was taken so far: the settings, whether operands were taken, the operands in front of the next
option, whether one of these is more than the two dashes, and whether something was left over. -/
structure Taking (σ : Type) where
  settings : σ
  operandsTaken : Bool
  waiting : List Text
  anyOperand : Bool
  leftOver : Bool

namespace Taking

def wait (t : Taking σ) (s : Text) (isOperand : Bool) : Taking σ :=
  { t with waiting := t.waiting ++ [s], anyOperand := t.anyOperand || isOperand }

/-- Takes the waiting operands, if operands can still be taken. The first two dashes among them are no
operand. -/
def settle (f : Form σ) (t : Taking σ) : Taking σ :=
  if t.waiting.isEmpty then t
  else
    let cleared : Taking σ := { t with waiting := [], anyOperand := false }
    match f.operands, t.anyOperand && !t.operandsTaken with
    | some apply, true =>
      { cleared with
        settings := apply (t.waiting.erase ['-', '-']) t.settings
        operandsTaken := true }
    | _, _ => { cleared with leftOver := true }

def fulfil (t : Taking σ) (effects : List (σ → Except Refusal σ)) (leftOver : Bool) :
    Except Refusal (Taking σ) := do
  let settings ← effects.foldlM (fun s effect => effect s) t.settings
  .ok { t with settings, leftOver := t.leftOver || leftOver }

/-- Takes the tokens in order. An option that still needs its value takes the next token, which must be an
operand. -/
def take (f : Form σ) (t : Taking σ) : List (Token σ) → Except Refusal (Taking σ)
  | [] => .ok (t.settle f)
  | .operand s :: rest => take f (t.wait s true) rest
  | .dashes :: rest => take f (t.wait ['-', '-'] false) rest
  | .options (.error e) :: _ => .error e
  | .options (.ok ⟨effects, some apply, leftOver⟩) :: .operand v :: rest => do
    take f (← (t.settle f).fulfil (effects ++ [apply v]) leftOver) rest
  | .options (.ok ⟨_, some _, _⟩) :: _ => .error .misuse
  | .options (.ok ⟨effects, none, leftOver⟩) :: rest => do
    take f (← (t.settle f).fulfil effects leftOver) rest

end Taking

/-- The settings that the arguments of a command give. Operands must be given if the command takes them, and
nothing may be left over. -/
def Form.read (f : Form σ) (initial : σ) (arguments : List Text) : Except Refusal σ := do
  let t ← Taking.take f ⟨initial, false, [], false, false⟩ (← f.tokens arguments)
  if t.leftOver || (f.operands.isSome && !t.operandsTaken) then .error .misuse else .ok t.settings

end

end IndentMarkup.Command
