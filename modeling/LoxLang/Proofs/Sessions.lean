/-
# LoxLang.Proofs.Sessions -- what one step leaves to the next

A session has a configuration, bindings and a reporter.  The configuration never changes,
and every run starts by forgetting what was reported (`Runner.run_eq`).  So the bindings
are all that a step leaves to the next one, and a step after any others is the same step
on a fresh runner that was told the bindings name by name.

Bindings come from others by further definitions and in no other way
(`Bindings.Extends`).  Evaluation keeps to that at every node, and therefore a run does
and a list of steps.  Bindings that come from none have each name once, and this is why
defining their entries in order builds them again (`Bindings.insertAll_entries`).
-/
import LoxLang.Proofs.Execution
import LoxLang.Runner

namespace LoxLang

set_option autoImplicit false

/-! ## Bindings -/

namespace Entries

variable {κ α : Type} [DecidableEq κ]

theorem keys_put_of_mem {key : κ} (value : α) {entries : List (κ × α)}
    (present : key ∈ entries.map Prod.fst) :
    (put key value entries).map Prod.fst = entries.map Prod.fst := by
  induction entries with
  | nil => cases present
  | cons entry rest ih =>
      obtain ⟨first, old⟩ := entry
      by_cases here : first = key
      · simp [put, here]
      · have behind : key ∈ rest.map Prod.fst := by simpa [Ne.symm here] using present
        simp [put, here, ih behind]

/-- Keys that are distinct stay distinct. -/
theorem nodup_put (key : κ) (value : α) {entries : List (κ × α)}
    (distinct : (entries.map Prod.fst).Nodup) : ((put key value entries).map Prod.fst).Nodup := by
  by_cases present : key ∈ entries.map Prod.fst
  · rwa [keys_put_of_mem value present]
  · rw [put_of_not_mem value present, List.map_append, List.nodup_append]
    refine ⟨distinct, by simp, ?_⟩
    rintro other member _ last rfl
    have same : other = key := List.mem_singleton.mp last
    exact present (same ▸ member)

end Entries

namespace Bindings

/-- Define names one after another. -/
def insertAll (b : Bindings) (entries : List (Text × Value)) : Bindings :=
  entries.foldl (fun b entry => b.insert entry.1 entry.2) b

/-- The second bindings come from the first by further definitions. -/
def Extends (b c : Bindings) : Prop := ∃ entries, c = b.insertAll entries

namespace Extends

theorem refl (b : Bindings) : b.Extends b := ⟨[], rfl⟩

theorem trans {b c d : Bindings} (first : b.Extends c) (second : c.Extends d) : b.Extends d := by
  obtain ⟨entries, rfl⟩ := first
  obtain ⟨more, rfl⟩ := second
  exact ⟨entries ++ more, by rw [insertAll, insertAll, insertAll, List.foldl_append]⟩

theorem insert (b : Bindings) (name : Text) (value : Value) : b.Extends (b.insert name value) :=
  ⟨[(name, value)], rfl⟩

/-- What one definition keeps, further definitions keep. -/
theorem keeps {b c : Bindings} (ext : b.Extends c) {P : Bindings → Prop}
    (step : ∀ b name value, P b → P (b.insert name value)) (start : P b) : P c := by
  obtain ⟨entries, rfl⟩ := ext
  induction entries generalizing b with
  | nil => exact start
  | cons entry rest ih => exact ih (step b entry.1 entry.2 start)

/-- No name is lost. -/
theorem contains {b c : Bindings} (ext : b.Extends c) {name : Text} (bound : b.contains name) :
    c.contains name := by
  refine ext.keeps (P := fun b => b.contains name) (fun b other value bound => ?_) bound
  rw [Bindings.contains, get?_insert]
  split
  · rfl
  · exact bound

theorem nodup {b c : Bindings} (ext : b.Extends c) (distinct : (b.entries.map Prod.fst).Nodup) :
    (c.entries.map Prod.fst).Nodup :=
  ext.keeps (P := fun b => (b.entries.map Prod.fst).Nodup)
    (fun _ name value distinct => Entries.nodup_put name value distinct) distinct

end Extends

theorem insertAll_of_nodup (front rest : List (Text × Value))
    (distinct : ((front ++ rest).map Prod.fst).Nodup) : insertAll ⟨front⟩ rest = ⟨front ++ rest⟩ := by
  induction rest generalizing front with
  | nil => simp [insertAll]
  | cons entry rest ih =>
      have split : front ++ entry :: rest = front ++ [entry] ++ rest := by simp
      have new : entry.1 ∉ front.map Prod.fst := by
        rw [List.map_append, List.nodup_append] at distinct
        exact fun member => distinct.2.2 _ member _ List.mem_cons_self rfl
      have step : insert ⟨front⟩ entry.1 entry.2 = ⟨front ++ [entry]⟩ :=
        congrArg Bindings.mk (Entries.put_of_not_mem entry.2 new)
      rw [split] at distinct
      rw [insertAll, List.foldl_cons, step, split]
      exact ih (front ++ [entry]) distinct

/-- Bindings that come from none are built again by defining their entries in order. -/
theorem insertAll_entries {b : Bindings} (ext : empty.Extends b) : empty.insertAll b.entries = b :=
  insertAll_of_nodup [] b.entries (ext.nodup List.nodup_nil)

end Bindings

/-! ## Evaluation -/

/-- Whether an event says that a statement is executed. -/
def Event.announces : Event → Bool
  | .executed _ => true
  | _ => false

namespace Eval

variable {α β : Type}

/-- The store behind a result. -/
def store : EStateM.Result Failure Store α → Store
  | .ok _ s => s
  | .error _ s => s

/-- The relations between stores that hold along evaluation: its smallest steps bind a name or leave an event
behind, though none that announces a statement. -/
structure Stepwise (R : Store → Store → Prop) : Prop where
  refl : ∀ s, R s s
  trans : ∀ {s t u}, R s t → R t u → R s u
  note : ∀ s event, event.announces = false → R s (s.note event)
  define : ∀ s name value, R s { s with bindings := s.bindings.insert name value }

/-- A computation that keeps to a relation between stores, whether it fails or not. -/
def Keeps (R : Store → Store → Prop) (m : Eval α) : Prop := ∀ s : Store, R s (store (m s))

namespace Keeps

variable {R : Store → Store → Prop} (steps : Stepwise R)

include steps

theorem pure (a : α) : Keeps R (pure a) := fun s => steps.refl s

theorem throw (failure : Failure) : Keeps R (throw failure : Eval α) := fun s => steps.refl s

theorem note {event : Event} (inner : event.announces = false) : Keeps R (note event) :=
  fun s => steps.note s event inner

theorem define (name : Text) (value : Value) : Keeps R (define name value) :=
  fun s => steps.define s name value

theorem bind {m : Eval α} {k : α → Eval β} (first : Keeps R m) (second : ∀ a, Keeps R (k a)) :
    Keeps R (m >>= k) := by
  intro s
  have here := first s
  cases ran : m s with
  | ok a t =>
      rw [ran] at here
      rw [bind_of_ok ran]
      exact steps.trans here (second a t)
  | error failure t =>
      rw [ran] at here
      rw [bind_of_error ran]
      exact here

/-- An event may be left behind before the answer. -/
theorem noted {m : Eval α} (first : Keeps R m) {event : α → Event}
    (inner : ∀ a, (event a).announces = false) (answer : α → β) :
    Keeps R (do let a ← m; Eval.note (event a); return answer a) :=
  bind steps first fun a => bind steps (note steps (inner a)) fun _ => pure steps (answer a)

theorem ofExcept (x : Except RuntimeError α) : Keeps R (ofExcept x) := by
  cases x with
  | ok a => exact pure steps a
  | error error => exact throw steps (.runtime error)

theorem lookUp (name : Text) (line : Int) : Keeps R (lookUp name line) := by
  intro s
  cases found : s.bindings.get? name with
  | some value =>
      rw [lookUp_of_some found]
      exact steps.refl s
  | none =>
      rw [lookUp_of_none found]
      exact steps.refl s

end Keeps

end Eval

open Eval in
/-- Evaluation keeps to what its smallest steps keep to, at whatever node. -/
theorem Node.eval_keeps {R : Store → Store → Prop} (steps : Stepwise R) (limit : Nat) (node : Node) :
    Keeps R (node.eval limit) := by
  induction limit generalizing node with
  | zero => exact .throw steps .tooDeep
  | succ limit ih =>
      cases node with
      | literal value => exact .pure steps value
      | hollow kind => exact .throw steps _
      | missing => exact .throw steps _
      | block statements => exact .throw steps _
      | grouping inner => exact ih inner
      | unary operator operand =>
          refine (ih operand).bind steps fun value => ?_
          exact (Keeps.ofExcept steps _).noted steps (fun _ => rfl) id
      | binary left operator right =>
          refine (ih left).bind steps fun a => (ih right).bind steps fun b => ?_
          exact (Keeps.ofExcept steps _).noted steps (fun _ => rfl) id
      | reference name line => exact (Keeps.lookUp steps name line).noted steps (fun _ => rfl) id
      | expression value => exact (ih value).bind steps fun _ => .pure steps Value.nil
      | print value => exact (ih value).noted steps (fun _ => rfl) fun _ => Value.nil
      | declaration name initializer line =>
          by_cases bare : initializer = .missing
          · subst bare
            exact (Keeps.define steps name .nil).noted steps (fun _ => rfl) fun _ => Value.nil
          · rw [eval_declaration limit name line bare]
            refine (ih initializer).bind steps fun value => ?_
            exact (Keeps.define steps name value).noted steps (fun _ => rfl) fun _ => Value.nil

/-- Evaluation only makes further definitions. -/
theorem Eval.stepwise_extends : Stepwise fun s t => s.bindings.Extends t.bindings :=
  ⟨fun s => .refl s.bindings, fun first second => first.trans second, fun s _ _ => .refl s.bindings,
    fun s name value => .insert s.bindings name value⟩

theorem Node.execute_extends (statement : Node) (s : Store) :
    s.bindings.Extends (statement.execute s).2.bindings := by
  have extended := statement.eval_keeps Eval.stepwise_extends evalLimit
    (s.note (.executed statement.kindName))
  unfold execute
  cases ran : statement.eval evalLimit (s.note (.executed statement.kindName)) <;> rw [ran] at extended <;>
    exact extended

/-- A run only makes further definitions. -/
theorem executeAll_extends (statements : List Node) (s : Store) :
    s.bindings.Extends (executeAll statements s).2.bindings := by
  induction statements generalizing s with
  | nil => exact .refl s.bindings
  | cons statement rest ih =>
      have first := statement.execute_extends s
      unfold executeAll
      cases ran : statement.execute s with
      | mk halt t =>
          rw [ran] at first
          cases halt with
          | ok => exact first.trans (ih t)
          | error halt => exact first

/-- Statements made of tokens as written succeed, or one of them fails. -/
theorem executeAll_halts {statements : List Node}
    (built : ∀ statement ∈ statements, statement.IsStatement Token.Written) (s : Store) :
    (executeAll statements s).1 = .ok () ∨ ∃ statement ∈ statements, ∃ error : RuntimeError,
      statement.Fails (executeAll statements s).2.bindings error ∧
        (executeAll statements s).1 = .error (.error error) := by
  obtain ⟨done, rest, lines, whole, -, -, ends⟩ := executeAll_performs built s
  cases rest with
  | nil => exact .inl ends
  | cons next rest => exact .inr ⟨next, by simp [whole], ends⟩

/-! ## Faults of a text -/

namespace Segment

theorem static_of_faults (line : Nat) (segments : List Segment) :
    ∀ d ∈ faults line segments, d.runtime = false := by
  induction segments generalizing line with
  | nil => simp [faults]
  | cons s rest ih =>
      intro d member
      rcases List.mem_append.mp member with here | later
      · have fault := Option.mem_toList.mp here
        unfold fault? at fault
        split at fault <;> cases fault <;> rfl
      · exact ih (line + s.newlines) d later

end Segment

theorem Descent.static_of_read (ts : List Token) : ∀ d ∈ (read ts).diagnostics, d.runtime = false := by
  intro d member
  obtain ⟨fault, -, rfl⟩ := List.mem_map.mp member
  unfold Fault.diagnostic
  split <;> rfl

theorem Stream.static_of_lex (line : Nat) (cs : List Char) : ∀ d ∈ (lex line cs).fault, d.runtime = false := by
  fun_induction lex line cs with
  | case1 => simp
  | case2 line c cs none => simp [breakOff, Diagnostic.atLine]
  | case3 line c cs terminal further found ih => exact ih

theorem ShiftReduce.static_of_located {stream : Stream} (static : ∀ d ∈ stream.fault, d.runtime = false)
    {d : Diagnostic} (faulty : located stream = .error d) : d.runtime = false := by
  unfold located at faulty
  split at faulty
  · cases faulty
    rfl
  · split at faulty
    · rename_i broken
      cases faulty
      exact static _ broken
    · cases faulty
    · cases faulty
      rfl

/-- What a front end reports is about the text. -/
theorem FrontEnd.static_of_read (frontEnd : FrontEnd) (source : String) :
    ∀ d ∈ (frontEnd.read source).diagnostics, d.runtime = false := by
  intro d member
  cases frontEnd with
  | descent =>
      rw [read_descent] at member
      rcases List.mem_append.mp member with lexical | syntactic
      · exact Segment.static_of_faults 1 _ d lexical
      · exact Descent.static_of_read _ d syntactic
  | stream =>
      change d ∈ (ShiftReduce.read (Stream.ofText source)).diagnostics at member
      unfold ShiftReduce.read at member
      split at member
      · rename_i fault faulty
        cases List.mem_singleton.mp member
        exact ShiftReduce.static_of_located (Stream.static_of_lex 1 source.toList) faulty
      · split at member
        · cases List.mem_singleton.mp member
          rfl
        · cases member

/-- A text with a fault is not run. -/
theorem FrontEnd.anyStatic_of_read {frontEnd : FrontEnd} {source : String}
    (faulty : (frontEnd.read source).diagnostics ≠ []) :
    Diagnostic.anyStatic (frontEnd.read source).diagnostics := by
  obtain ⟨d, member⟩ := List.exists_mem_of_ne_nil _ faulty
  have static := frontEnd.static_of_read source d member
  exact List.any_eq_true.mpr ⟨d, member, by simp [static]⟩

namespace Session

variable (s : Session) {source : String}

theorem run_of_clean (clean : (s.frontEnd.read source).diagnostics = []) :
    s.run source = s.runStatements (s.frontEnd.read source).statements := by
  unfold run
  simp only [clean]
  rfl

theorem run_of_faulty (faulty : (s.frontEnd.read source).diagnostics ≠ []) :
    s.run source =
      ⟨⟨(s.frontEnd.read source).statements, (s.frontEnd.read source).diagnostics, none⟩, [], s⟩ :=
  if_pos (FrontEnd.anyStatic_of_read faulty)

end Session

/-! ## Reporting -/

theorem Diagnostic.text_append (ds es : List Diagnostic) : text (ds ++ es) = text ds ++ text es := by
  simp [text, Text.lines]

/-- Reported one after another, diagnostics are kept and written in order. -/
theorem Reporter.reportAll_eq (r : Reporter) (ds : List Diagnostic) :
    r.reportAll ds = (⟨r.diagnostics ++ ds⟩, Diagnostic.text ds) := by
  induction ds generalizing r with
  | nil => simp [reportAll, Diagnostic.text, Text.lines]
  | cons d ds ih =>
      rw [reportAll, report]
      simp only [ih, ← Diagnostic.text_append, List.append_assoc, List.singleton_append]

/-- A run whose diagnostics were reported to a reporter that had nothing before. -/
def Run.reported (run : Run) : ReportedRun :=
  ⟨run, Diagnostic.text run.result.diagnostics, ⟨run.result.diagnostics⟩⟩

namespace Runner

variable (r : Runner)

theorem execute_eq (session : Session) (statements : List Node) :
    execute ⟨session, .empty⟩ [] statements = (session.runStatements statements).reported := by
  unfold execute Session.runStatements Run.reported
  cases executeAll statements ⟨session.bindings, []⟩ with
  | mk halt store =>
      cases halt with
      | ok => rfl
      | error halt => cases halt <;> rfl

/-- Whatever was reported before, running statements reports what the session does. -/
theorem runStatements_eq (statements : List Node) :
    r.runStatements statements = (r.session.runStatements statements).reported :=
  execute_eq r.session statements

/-- Whatever was reported before, a run reports what the session does. -/
theorem run_eq (source : String) : r.run source = (r.session.run source).reported := by
  have reported : r.reporter.reset.reportAll (r.session.frontEnd.read source).diagnostics =
      (⟨(r.session.frontEnd.read source).diagnostics⟩,
        Diagnostic.text (r.session.frontEnd.read source).diagnostics) :=
    Reporter.reportAll_eq .empty _
  unfold run
  simp only [reported]
  -- a front end reports nothing but faults of the text, so a text is run if nothing was reported
  by_cases clean : (r.session.frontEnd.read source).diagnostics = []
  · rw [r.session.run_of_clean clean, clean]
    exact execute_eq r.session _
  · rw [if_pos (FrontEnd.anyStatic_of_read clean), r.session.run_of_faulty clean]
    rfl

end Runner

/-! ## Steps -/

/-- Evaluating an expression binds and prints nothing. -/
theorem Bindings.evaluateIn_still (b : Bindings) (source : String) :
    Store.Still ⟨b, []⟩ (b.evaluateIn source).2 := by
  unfold evaluateIn
  simp only
  split
  · rename_i value _ isExpression
    have inner : value.IsExpression Token.Written :=
      FrontEnd.isExpression_written (by rw [isExpression]; exact List.mem_cons_self)
    obtain ⟨outcome, -, comes⟩ := Node.eval_yields inner b evalLimit
    have still := comes ⟨b, []⟩ rfl
    cases ran : value.eval evalLimit ⟨b, []⟩ <;> rw [ran] at still <;> exact still.2
  · exact .refl _
  · exact .refl _

/-- The second session is the first with further definitions. -/
structure Session.Continues (s t : Session) : Prop where
  configuration : t = { s with bindings := t.bindings }
  bindings : s.bindings.Extends t.bindings

namespace Session.Continues

theorem refl (s : Session) : s.Continues s := ⟨rfl, .refl s.bindings⟩

theorem trans {s t u : Session} (first : s.Continues t) (second : t.Continues u) : s.Continues u := by
  refine ⟨?_, first.bindings.trans second.bindings⟩
  rw [second.configuration, first.configuration]

end Session.Continues

theorem Session.runStatements_continues (s : Session) (statements : List Node) :
    s.Continues (s.runStatements statements).session :=
  ⟨rfl, executeAll_extends statements ⟨s.bindings, []⟩⟩

theorem Session.run_continues (s : Session) (source : String) : s.Continues (s.run source).session := by
  by_cases clean : (s.frontEnd.read source).diagnostics = []
  · rw [s.run_of_clean clean]
    exact s.runStatements_continues _
  · rw [s.run_of_faulty clean]
    exact .refl s

namespace Runner

/-- A step keeps the configuration and takes no binding back. -/
theorem step_continues (r : Runner) (next : Step) : r.session.Continues (r.step next).2.session := by
  cases next with
  | run source =>
      rw [step, run_eq]
      exact r.session.run_continues source
  | runStatements statements =>
      rw [step, runStatements_eq]
      exact r.session.runStatements_continues statements
  | define name value => exact ⟨rfl, .insert r.session.bindings name value⟩
  | evaluate source =>
      refine ⟨rfl, ?_⟩
      show r.session.bindings.Extends (r.session.bindings.evaluateIn source).2.bindings
      rw [(r.session.bindings.evaluateIn_still source).bindings]
      exact .refl _

/-- Steps keep the configuration and take no binding back. -/
theorem after_continues (r : Runner) (steps : List Step) : r.session.Continues (r.after steps).session := by
  induction steps generalizing r with
  | nil => exact .refl r.session
  | cons next rest ih => exact (r.step_continues next).trans (ih (r.step next).2)

/-- What a step does depends on the session, and not on what was reported before. -/
theorem step_of_session {r r' : Runner} (same : r.session = r'.session) (next : Step) :
    (r.step next).1 = (r'.step next).1 ∧ (r.step next).2.session = (r'.step next).2.session := by
  cases next with
  | run source =>
      rw [step, step, run_eq, run_eq, same]
      exact ⟨rfl, rfl⟩
  | runStatements statements =>
      rw [step, step, runStatements_eq, runStatements_eq, same]
      exact ⟨rfl, rfl⟩
  | define name value => exact ⟨rfl, congrArg (·.define name value) same⟩
  | evaluate source =>
      simp only [step, same]
      exact ⟨trivial, trivial⟩

/-- The steps that define what bindings hold. -/
def preload (b : Bindings) : List Step := b.entries.map fun entry => .define entry.1 entry.2

theorem session_after_define (r : Runner) (entries : List (Text × Value)) :
    (r.after (entries.map fun entry => .define entry.1 entry.2)).session =
      { r.session with bindings := r.session.bindings.insertAll entries } := by
  induction entries generalizing r with
  | nil => rfl
  | cons entry rest ih => exact ih (r.define entry.1 entry.2)

/-- A fresh runner that is told the bindings of another is in the same session. -/
theorem session_after_preload (frontEnd : FrontEnd) (verbosity : Nat) (steps : List Step) :
    ((fresh frontEnd verbosity).after
        (preload ((fresh frontEnd verbosity).after steps).session.bindings)).session =
      ((fresh frontEnd verbosity).after steps).session := by
  have continues := (fresh frontEnd verbosity).after_continues steps
  have rebuilt := Bindings.insertAll_entries continues.bindings
  rw [preload, session_after_define, continues.configuration]
  exact congrArg (Session.mk frontEnd verbosity true) rebuilt

/-- **The bindings are all that a step leaves to the next.**  After any steps, one more gives the same
answer and the same session as on a fresh runner that was told the bindings and nothing else.  A
text with a fault prints nothing and binds nothing, an expression that is evaluated binds nothing,
and no step takes a name back. -/
theorem step_depends_on_bindings (frontEnd : FrontEnd) (verbosity : Nat) (steps : List Step)
    (next : Step) :
    let runner := (fresh frontEnd verbosity).after steps
    let alone := (fresh frontEnd verbosity).after (preload runner.session.bindings)
    (alone.session = runner.session ∧ (runner.step next).1 = (alone.step next).1 ∧
      (runner.step next).2.session = (alone.step next).2.session) ∧
    (∀ source, (frontEnd.read source).diagnostics ≠ [] →
      (runner.step (.run source)).1.output = [] ∧
      (runner.step (.run source)).2.session.bindings = runner.session.bindings) ∧
    (∀ source, (runner.step (.evaluate source)).2.session.bindings = runner.session.bindings) ∧
    ∀ name, runner.session.bindings.contains name →
      (runner.step next).2.session.bindings.contains name := by
  intro runner alone
  have same : alone.session = runner.session := session_after_preload frontEnd verbosity steps
  have configuration := ((fresh frontEnd verbosity).after_continues steps).configuration
  refine ⟨⟨same, step_of_session same.symm next⟩, ?_, ?_, ?_⟩
  · intro source faulty
    have unchanged : runner.session.frontEnd = frontEnd := by
      show ((fresh frontEnd verbosity).after steps).session.frontEnd = frontEnd
      rw [configuration]
      rfl
    rw [step, run_eq, runner.session.run_of_faulty (unchanged ▸ faulty)]
    exact ⟨rfl, rfl⟩
  · intro source
    exact (runner.session.bindings.evaluateIn_still source).bindings
  · intro name bound
    exact (runner.step_continues next).bindings.contains bound

end Runner

end LoxLang
