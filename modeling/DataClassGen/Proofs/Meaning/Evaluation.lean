import DataClassGen.Proofs.Meaning.Syntax

/-!
# Running the bodies of functions

What the generated functions do when they are called. Objects stand on a heap and are known by their
addresses; they have fields by name. A name stands for a parameter if there is one of that name, and
for a field of the object otherwise; parameters cannot be set. Types are not looked at: that is done
when the code is compiled.

A call leads to a function of the object's class by its name and the number of its arguments. If
several fit, the types of the arguments decide; here any choice is possible (`Program.pick`).
Functions with a parameter that takes any number of arguments come second. What other classes do is
left open, too. The depth of calls bounds a run.
-/

namespace DataClassGen.Meaning

open Source

/-! ### Values and objects -/

/-- A value; `α` are the values of other classes. -/
inductive Value (α : Type) where
  | null
  | truth (b : Bool)
  | text (s : String)
  /-- Any number of arguments for one parameter. -/
  | several (values : List (Value α))
  | object (address : Nat)
  | foreign (a : α)

namespace Value

variable {α : Type}

/-- The value is null. -/
def isNull : Value α → Bool
  | .null => true
  | _ => false

theorem isNull_iff {v : Value α} : v.isNull = true ↔ v = .null := by
  cases v <;> simp [isNull]

end Value

/-- An object with its fields. -/
structure Object (α : Type) where
  cls : ClassName
  fields : List (String × Value α)

/-- The objects by their addresses. -/
abbrev Heap (α : Type) := List (Object α)

/-- What keeps a run from giving a value. -/
inductive Trouble where
  | failure (message : String)
  /-- There is no rule for what comes next. -/
  | stuck

/-- A run that may change objects. -/
abbrev Run (α β : Type) := StateT (Heap α) (Except Trouble) β

section Fields

variable {α β : Type}

/-- A run that ends here. -/
def failing (trouble : Trouble) : Run α β := fun _ => .error trouble

/-- The value, if there is one. -/
def orStuck : Option β → Run α β
  | some b => pure b
  | none => failing .stuck

/-- The object at the address that the value is. -/
def objectOf (v : Value α) : Run α (Object α) := fun heap =>
  match v with
  | .object a => (orStuck heap[a]? : Run α (Object α)) heap
  | _ => .error .stuck

/-- The value of a field. -/
def readField (v : Value α) (n : String) : Run α (Value α) := do
  let o ← objectOf v
  orStuck (o.fields.lookup n)

/-- The object with another value in the fields of this name. -/
def Object.set (o : Object α) (n : String) (v : Value α) : Object α :=
  { o with fields := o.fields.map fun field => if field.1 = n then (n, v) else field }

/-- Sets a field. -/
def writeField (target : Value α) (n : String) (v : Value α) : Run α Unit := fun heap =>
  match target with
  | .object a =>
    match heap[a]? with
    | some o =>
      if (o.fields.lookup n).isSome then .ok ((), heap.set a (o.set n v)) else .error .stuck
    | none => .error .stuck
  | _ => .error .stuck

/-- A new object. -/
def allocate (o : Object α) : Run α (Value α) := fun heap =>
  .ok (.object heap.length, heap ++ [o])

end Fields

/-! ### Programs -/

/-- The classes of a program, and what is left open about it. -/
structure Program (α : Type) where
  classes : ClassName → Option TypeDecl
  /-- The function that is meant by a call that these fit. -/
  pick : List Function → Option Function
  pick_mem : ∀ {fs f}, pick fs = some f → f ∈ fs
  pick_isSome : ∀ {fs}, fs ≠ [] → (pick fs).isSome = true
  /-- What comes of constructing another class, or of one of its functions. -/
  made : TypeName → Option String → Value α
  /-- What a function of another class gives. -/
  called : α → String → List (Value α) → Value α

/-- One of the parameters takes any number of arguments. -/
def isVariadic (f : Function) : Bool := f.parameters.any fun p => p.modifiers.contains .vararg

/-- The parameters under their names. -/
def bind? {α : Type} : List Parameter → List (Value α) → Option (List (String × Value α))
  | [], [] => some []
  | [], _ :: _ => none
  | p :: ps, vs =>
    if p.modifiers.contains .vararg then
      if ps.isEmpty then some [(p.name, .several vs)] else none
    else
      match vs with
      | [] => none
      | v :: vs => (bind? ps vs).map ((p.name, v) :: ·)

/-- The code in a line of a body. -/
def code? : Statement → Option Code
  | .code code => some code
  | .comment _ => none

/-- The steps of a function, if all of them can be read. -/
def stepsOf? (f : Function) : Option (List Step) := (f.body.filterMap code?).mapM Step.ofCode?

/-- The value of code that is a constant. -/
def constant? {α : Type} (code : Code) : Option (Value α) :=
  match Step.ofCode? code with
  | some (.act (.perform (.value .null []))) => some .null
  | some (.act (.perform (.value (.truth b) []))) => some (.truth b)
  | _ => none

/-- Arguments that all have labels, by these. -/
def labelled? {α : Type} (args : List (Option String × Value α)) :
    Option (List (String × Value α)) :=
  args.mapM fun arg => arg.1.map (·, arg.2)

/-- Arguments that all have none. -/
def positional? {α : Type} (args : List (Option String × Value α)) : Option (List (Value α)) :=
  args.mapM fun arg => if arg.1.isNone then some arg.2 else none

/-- The fields of a new object: the properties of the constructor have the values of the arguments
or else their defaults, the others have their first values. -/
def fieldsOf? {α : Type} (decl : TypeDecl) (args : List (String × Value α)) :
    Option (List (String × Value α)) := do
  let constructor ← decl.constructor
  let names := constructor.properties.map (·.property.name)
  let () ← if args.all fun arg => names.contains arg.1 then some () else none
  let given ← constructor.properties.mapM fun p => do
    let v ← (args.lookup p.property.name).or (p.default.bind constant?)
    some (p.property.name, v)
  let others ← decl.properties.mapM fun p => do
    let v ← p.initializer.bind constant?
    some (p.name, v)
  some (given ++ others)

namespace Program

variable {α : Type} (P : Program α)

/-- The function of a class that a call leads to. -/
def resolve (decl : TypeDecl) (name : String) (count : Nat) : Option Function :=
  let named := decl.functions.filter (·.name == name)
  let exact := named.filter fun f => !isVariadic f && f.parameters.length == count
  if exact.isEmpty then
    P.pick (named.filter fun f => isVariadic f && f.parameters.length ≤ count + 1)
  else P.pick exact

/-- A new object of a type. -/
def construct (t : TypeName) (args : List (Option String × Value α)) : Run α (Value α) :=
  match t.class? with
  | none => failing .stuck
  | some cls =>
    match P.classes cls with
    | some decl => do
      let args ← orStuck (labelled? args)
      let fields ← orStuck (fieldsOf? decl args)
      allocate ⟨cls, fields⟩
    | none => if args.isEmpty then pure (P.made t none) else failing .stuck

end Program

/-! ### Runs -/

/-- What names stand for. -/
structure Scope (α : Type) where
  self : Value α
  locals : List (String × Value α)

section Eval

variable {α : Type}

namespace Scope

/-- The value of a name. -/
def find (sc : Scope α) (n : String) : Run α (Value α) :=
  match sc.locals.lookup n with
  | some v => pure v
  | none => readField sc.self n

/-- Sets what a name stands for. -/
def assign (sc : Scope α) (onSelf : Bool) (n : String) (v : Value α) : Run α Unit :=
  if !onSelf && (sc.locals.lookup n).isSome then failing .stuck else writeField sc.self n v

/-- A name more. -/
def binding (sc : Scope α) (n : String) (v : Value α) : Scope α :=
  { sc with locals := (n, v) :: sc.locals }

end Scope

/-- A copy of an object with other values. -/
def copying (self : Value α) (args : List (Option String × Value α)) : Run α (Value α) := do
  let o ← objectOf self
  let args ← orStuck (labelled? args)
  if args.all fun arg => (o.fields.lookup arg.1).isSome then
    allocate { o with fields := o.fields.map fun field =>
      (field.1, (args.lookup field.1).getD field.2) }
  else failing .stuck

variable (P : Program α) (send : Value α → String → List (Value α) → Run α (Value α))

mutual

/-- The value of an expression. -/
def Expr.eval : Scope α → Expr → Run α (Value α)
  | sc, .value head suffixes => do
    let v ← Head.eval sc head
    Suffix.evalAll sc v suffixes
  | sc, .orElse head suffixes other => do
    let v ← Head.eval sc head
    let v ← Suffix.evalAll sc v suffixes
    if v.isNull then Expr.eval sc other else pure v

/-- The value of a head. -/
def Head.eval : Scope α → Head → Run α (Value α)
  | sc, .name n => sc.find n
  | sc, .self => pure sc.self
  | _, .null => pure .null
  | _, .truth b => pure (.truth b)
  | _, .text s => pure (.text s)
  | sc, .call f args => do
    let args ← Argument.evalAll sc args
    let args ← orStuck (positional? args)
    send sc.self f args
  | sc, .make t args => do
    let args ← Argument.evalAll sc args
    P.construct t args
  | _, .factory t f _ => pure (P.made t (some f))
  | sc, .fail e => do
    let v ← Expr.eval sc e
    match v with
    | .text message => failing (.failure message)
    | _ => failing .stuck
  | sc, .copy args => do
    let args ← Argument.evalAll sc args
    copying sc.self args
  | sc, .apply a => do
    Action.run sc a
    pure sc.self
  | sc, .group e => Expr.eval sc e

/-- What a value gives when this is asked of it. -/
def Suffix.eval : Scope α → Value α → Suffix → Run α (Value α)
  | _, v, .field n => readField v n
  | sc, v, .send isSafe f args =>
    if isSafe && v.isNull then pure .null
    else do
      let args ← Argument.evalAll sc args
      let args ← orStuck (positional? args)
      send v f args
  | sc, v, .also n actions => do
    Action.runAll (sc.binding n v) actions
    pure v
  | sc, v, .whenPresent e => if v.isNull then pure .null else Expr.eval (sc.binding "it" v) e

/-- What a value gives when all this is asked, one after the other. -/
def Suffix.evalAll : Scope α → Value α → List Suffix → Run α (Value α)
  | _, v, [] => pure v
  | sc, v, s :: ss => do
    let v ← Suffix.eval sc v s
    Suffix.evalAll sc v ss

/-- The value of an argument, with its label. -/
def Argument.eval : Scope α → Argument → Run α (Option String × Value α)
  | sc, .mk label e => do
    let v ← Expr.eval sc e
    pure (label, v)

/-- The values of arguments, with their labels. -/
def Argument.evalAll : Scope α → List Argument → Run α (List (Option String × Value α))
  | _, [] => pure []
  | sc, a :: as => do
    let v ← Argument.eval sc a
    let vs ← Argument.evalAll sc as
    pure (v :: vs)

/-- Does something. -/
def Action.run : Scope α → Action → Run α Unit
  | sc, .assign onSelf n e => do
    let v ← Expr.eval sc e
    sc.assign onSelf n v
  | sc, .perform e => do
    let _ ← Expr.eval sc e
    pure ()

/-- Does things one after the other. -/
def Action.runAll : Scope α → List Action → Run α Unit
  | _, [] => pure ()
  | sc, a :: as => do
    Action.run sc a
    Action.runAll sc as

end

/-- Takes steps until a value is given back. -/
def runSteps (sc : Scope α) : List Step → Run α (Option (Value α))
  | [] => pure none
  | .giveBack e :: _ => do
    let v ← e.eval P send sc
    pure (some v)
  | .requireNull n message :: steps => do
    let v ← sc.find n
    if v.isNull then runSteps sc steps else failing (.failure message)
  | .requireNot n message :: steps => do
    let v ← sc.find n
    match v with
    | .truth false => runSteps sc steps
    | .truth true => failing (.failure message)
    | _ => failing .stuck
  | .act a :: steps => do
    a.run P send sc
    runSteps sc steps

end Eval

namespace Program

variable {α : Type} (P : Program α)

/-- A call, if it is known how to run the function that it leads to. -/
def sendBy (run : Function → Value α → List (Value α) → Run α (Value α)) (target : Value α)
    (name : String) (args : List (Value α)) : Run α (Value α) :=
  match target with
  | .foreign a => pure (P.called a name args)
  | target => do
    let o ← objectOf target
    let decl ← orStuck (P.classes o.cls)
    let f ← orStuck (P.resolve decl name args.length)
    run f target args

/-- Runs a function on an object; calls go this deep at most. -/
def run : Nat → Function → Value α → List (Value α) → Run α (Value α)
  | 0, _, _, _ => failing .stuck
  | depth + 1, f, self, args => do
    let locals ← orStuck (bind? f.parameters args)
    let steps ← orStuck (stepsOf? f)
    let result ← runSteps P (P.sendBy (run depth)) ⟨self, locals⟩ steps
    orStuck result

/-- A call of a function of an object. -/
def send (depth : Nat) : Value α → String → List (Value α) → Run α (Value α) :=
  P.sendBy (P.run depth)

end Program

/-! ### Runs that give a value, and runs that do not -/

section Gives

variable {α β γ : Type} {heap heap' heap'' : Heap α} {m : Run α β} {b : β}

/-- The run gives this value, and leaves these objects. -/
def Gives (m : Run α β) (heap : Heap α) (b : β) (heap' : Heap α) : Prop :=
  m heap = .ok (b, heap')

/-- The run gives no value. -/
def Fails (m : Run α β) (heap : Heap α) : Prop := ∃ trouble, m heap = .error trouble

theorem gives_pure : Gives (pure b : Run α β) heap b heap := rfl

theorem Gives.bind_eq (h : Gives m heap b heap') (f : β → Run α γ) :
    (m >>= f) heap = f b heap' := by
  change Except.bind (m heap) (fun r => f r.1 r.2) = _
  rw [h]
  rfl

theorem Gives.bind {f : β → Run α γ} {c : γ} (h : Gives m heap b heap')
    (h' : Gives (f b) heap' c heap'') : Gives (m >>= f) heap c heap'' := (h.bind_eq f).trans h'

theorem Gives.bind_fails {f : β → Run α γ} (h : Gives m heap b heap') (h' : Fails (f b) heap') :
    Fails (m >>= f) heap := by
  rw [Fails, h.bind_eq]
  exact h'

theorem Fails.bind (h : Fails m heap) (f : β → Run α γ) : Fails (m >>= f) heap := by
  obtain ⟨trouble, h⟩ := h
  refine ⟨trouble, ?_⟩
  change Except.bind (m heap) (fun r => f r.1 r.2) = _
  rw [h]
  rfl

/-- A run gives one value at most. -/
theorem Gives.unique {c : β} (h : Gives m heap b heap') (h' : Gives m heap c heap'') :
    b = c ∧ heap' = heap'' :=
  Prod.mk.inj (Except.ok.inj (h.symm.trans h'))

theorem Fails.not_gives (h : Fails m heap) : ¬ Gives m heap b heap' := by
  obtain ⟨trouble, h⟩ := h
  intro h'
  cases h.symm.trans h'

theorem fails_failing (trouble : Trouble) : Fails (failing trouble : Run α β) heap := ⟨trouble, rfl⟩

theorem gives_orStuck {o : Option β} (h : o = some b) : Gives (orStuck o : Run α β) heap b heap := by
  rw [h]
  rfl

/-- A run of two gives a value if the first leads to the second. -/
theorem gives_bind_iff {f : β → Run α γ} {c : γ} :
    Gives (m >>= f) heap c heap'' ↔ ∃ b heap', Gives m heap b heap' ∧ Gives (f b) heap' c heap'' := by
  constructor
  · intro h
    cases hm : m heap with
    | error trouble => exact absurd h (Fails.not_gives (Fails.bind ⟨trouble, hm⟩ f))
    | ok r => exact ⟨r.1, r.2, hm, (Gives.bind_eq hm f).symm.trans h⟩
  · rintro ⟨b, heap', hm, h⟩
    exact hm.bind h

/-- Where it is known what a run gives, it gives that only. -/
theorem Gives.iff {c : β} (h : Gives m heap b heap') :
    Gives m heap c heap'' ↔ c = b ∧ heap'' = heap' := by
  constructor
  · intro h'
    obtain ⟨rfl, rfl⟩ := h.unique h'
    exact ⟨rfl, rfl⟩
  · rintro ⟨rfl, rfl⟩
    exact h

/-- Nothing comes of a second run that gives what it is given. -/
theorem bind_eq_self {f : β → Run α β}
    (h : ∀ b heap', Gives m heap b heap' → Gives (f b) heap' b heap') : (m >>= f) heap = m heap := by
  cases hm : m heap with
  | error trouble =>
    change Except.bind (m heap) (fun r => f r.1 r.2) = _
    rw [hm]
    rfl
  | ok r => exact Gives.bind hm (h r.1 r.2 hm)

theorem gives_pure_iff {c : β} : Gives (pure b : Run α β) heap c heap' ↔ c = b ∧ heap' = heap :=
  gives_pure.iff

theorem gives_orStuck_iff {o : Option β} :
    Gives (orStuck o) heap b heap' ↔ o = some b ∧ heap' = heap := by
  cases o with
  | none => simp [orStuck, (fails_failing _).not_gives]
  | some c => simp [orStuck, gives_pure_iff, eq_comm]

/-- A run gives a value or fails. -/
theorem fails_iff : Fails m heap ↔ ∀ b heap', ¬ Gives m heap b heap' := by
  constructor
  · exact fun h b heap' => h.not_gives
  · intro h
    cases hm : m heap with
    | error trouble => exact ⟨trouble, hm⟩
    | ok r => exact absurd hm (h r.1 r.2)

end Gives

section Rules

variable {α : Type} {heap heap' heap'' : Heap α} {a : Nat} {o : Object α} {n : String} {v w : Value α}

theorem gives_objectOf (h : heap[a]? = some o) : Gives (objectOf (.object a)) heap o heap :=
  gives_orStuck h

theorem gives_readField (h : heap[a]? = some o) (hv : o.fields.lookup n = some v) :
    Gives (readField (.object a) n) heap v heap :=
  (gives_objectOf h).bind (gives_orStuck hv)

theorem gives_writeField (h : heap[a]? = some o) (hn : (o.fields.lookup n).isSome = true) :
    Gives (writeField (.object a) n v) heap () (heap.set a (o.set n v)) := by
  simp only [Gives, writeField, h, hn, if_true]

theorem gives_allocate : Gives (allocate o) heap (.object heap.length) (heap ++ [o]) := rfl

/-- Setting a field changes this field. -/
theorem Object.lookup_set (o : Object α) (n k : String) (v : Value α) :
    (o.set n v).fields.lookup k =
      if k = n then (o.fields.lookup k).map fun _ => v else o.fields.lookup k := by
  rw [Object.set]
  generalize o.fields = fields
  induction fields with
  | nil => simp
  | cons field fields ih =>
    obtain ⟨name, old⟩ := field
    by_cases hname : name = n
    · subst hname
      by_cases hk : k = name
      · simp [hk]
      · simpa [hk, List.lookup_cons, beq_false_of_ne hk] using ih
    · by_cases hk : k = name
      · simp [hk, hname]
      · simpa [hk, hname, List.lookup_cons, beq_false_of_ne hk] using ih

variable (P : Program α) (send : Value α → String → List (Value α) → Run α (Value α))
  {sc : Scope α}

theorem gives_local (h : sc.locals.lookup n = some v) : Gives (sc.find n) heap v heap := by
  rw [Scope.find, h]
  exact gives_pure

theorem gives_ownField (hself : sc.self = .object a) (hlocal : sc.locals.lookup n = none)
    (h : heap[a]? = some o) (hv : o.fields.lookup n = some v) : Gives (sc.find n) heap v heap := by
  rw [Scope.find, hlocal, hself]
  exact gives_readField h hv

variable {P send}

/-- Values that are read one by one. -/
theorem gives_arguments {β : Type} {argument : β → Argument} {name : β → String} {value : β → Value α}
    {bs : List β} (h : ∀ b ∈ bs,
      Gives (Argument.eval P send sc (argument b)) heap (some (name b), value b) heap) :
    Gives (Argument.evalAll P send sc (bs.map argument)) heap
      (bs.map fun b => (some (name b), value b)) heap := by
  induction bs with
  | nil => exact gives_pure
  | cons b bs ih =>
    obtain ⟨hb, hbs⟩ := List.forall_mem_cons.mp h
    exact hb.bind ((ih hbs).bind gives_pure)

theorem labelled?_map {β : Type} (name : β → String) (value : β → Value α) (bs : List β) :
    labelled? (bs.map fun b => (some (name b), value b)) =
      some (bs.map fun b => (name b, value b)) := by
  induction bs with
  | nil => rfl
  | cons b bs ih =>
    rw [labelled?] at ih ⊢
    rw [List.map_cons, List.mapM_cons, ih]
    rfl

end Rules

end DataClassGen.Meaning
