import ExprWasm.Proofs.Wat.Rendering
import ExprWasm.Tree.Printer

/-! A generator and a printer that are used again and again.

What stays between two uses is the sink of the generator, the output of the printer and the depth
that visits go down and come up again. Neither the sink nor the output has a part in what a later
step gives back, and the depth is zero after every step, also after one on a tree that has no
instructions. -/

set_option autoImplicit false

namespace ExprWasm.Wat

open ExprWasm.Tree (Node Printer)

inductive Step where
  | run (tree : Node)
  | generate (tree : Node)
  | print (tree : Node)
  | visit (tree : Node)

inductive Answer where
  | ran (outcome : Except Failure Unit)
  | generated (text : Except Failure String)
  | printed (text : String)
  | visited

structure Session where
  generator : Generator := {}
  printer : Printer := {}

namespace Session

def step (session : Session) : Step → Answer × Session
  | .run tree =>
      let (outcome, generator) := session.generator.run tree
      (.ran outcome, { session with generator := generator })
  | .generate tree =>
      let (text, generator) := session.generator.generate tree
      (.generated text, { session with generator := generator })
  | .print tree =>
      let printer := session.printer.print tree
      (.printed printer.text, { session with printer := printer })
  | .visit tree => (.visited, { session with printer := session.printer.visit tree })

def answers (session : Session) : List Step → List Answer
  | [] => []
  | step :: rest => (session.step step).1 :: (session.step step).2.answers rest

def after (session : Session) : List Step → Session
  | [] => session
  | step :: rest => (session.step step).2.after rest

/-- A new printer, and a generator that has no sink yet or one with earlier writes and no bound. -/
def opened (earlier : Option (Array String)) : Session :=
  { generator := { sink := earlier.map fun writes => { writes := writes } } }

end Session

namespace Step

def freshAnswer (step : Step) : Answer :=
  (Session.step {} step).1

/-- What a step adds to the sink: for a run the lines of its tree up to the first node without
instructions, each with a line feed. -/
def writes : Step → List String
  | run tree => terminated (lines tree).texts
  | _ => []

def held (earlier : Option (Array String)) (step : Step) : Option (Array String) :=
  match step with
  | run _ => some (earlier.getD #[] ++ step.writes.toArray)
  | _ => earlier

def shown (output : List String) : Step → List String
  | print tree => (Printer.print {} tree).output
  | visit tree => output ++ (Printer.print {} tree).output
  | _ => output

end Step

/-! ### One step -/

theorem Generator.run_unbounded (earlier : Option (Array String)) (tree : Node) :
    Generator.run { sink := earlier.map fun writes => { writes := writes } } tree =
      ((lines tree).failure.elim (.ok ()) .error,
        { sink := some { writes := earlier.getD #[] ++ (terminated (lines tree).texts).toArray } }) := by
  have opened : (earlier.map fun writes => ({ writes := writes } : Sink)).getD {} =
      { writes := earlier.getD #[] } := by
    cases earlier with
    | none => rfl
    | some writes => rfl
  rw [run, opened, writeTree_unbounded]

/-- The text does not depend on the generator, and the generator stays as it is. -/
theorem Generator.generate_eq (generator : Generator) (tree : Node) :
    generator.generate tree = ((Generator.generate {} tree).1, generator) := by
  unfold generate
  cases run { sink := some {} } tree with
  | mk outcome other =>
      cases outcome with
      | ok => rfl
      | error failure => rfl

namespace Session

theorem step_generate (session : Session) (tree : Node) :
    session.step (.generate tree) = (Step.freshAnswer (.generate tree), session) := by
  simp only [step, Step.freshAnswer, session.generator.generate_eq tree]

structure Ready (session : Session) (earlier : Option (Array String)) (output : List String) :
    Prop where
  generator : session.generator = { sink := earlier.map fun writes => { writes := writes } }
  printer : session.printer = { output := output }

variable {session : Session} {earlier : Option (Array String)} {output : List String}
  (ready : session.Ready earlier output)

include ready

theorem Ready.step_answer (step : Step) : (session.step step).1 = step.freshAnswer := by
  cases step with
  | run tree =>
      have again := Generator.run_unbounded earlier tree
      have first : Generator.run {} tree = _ := Generator.run_unbounded none tree
      simp only [Session.step, Step.freshAnswer, ready.generator, again, first]
  | generate tree => rw [step_generate]
  | print tree => rfl
  | visit tree => rfl

theorem Ready.step_ready (step : Step) :
    (session.step step).2.Ready (step.held earlier) (step.shown output) := by
  cases step with
  | run tree =>
      have again := Generator.run_unbounded earlier tree
      rw [← ready.generator] at again
      exact ⟨congrArg Prod.snd again, ready.printer⟩
  | generate tree =>
      rw [step_generate]
      exact ready
  | print tree =>
      have anew := Printer.visit_of_level [] tree
      exact ⟨ready.generator, anew⟩
  | visit tree =>
      have added := Printer.visit_of_level output tree
      rw [← ready.printer] at added
      exact ⟨ready.generator, added⟩

theorem Ready.text : session.generator.text = String.join (earlier.getD #[]).toList := by
  rw [Generator.text, ready.generator]
  cases earlier with
  | none => rfl
  | some writes => rfl

/-! ### All steps -/

theorem Ready.answers (steps : List Step) : session.answers steps = steps.map Step.freshAnswer := by
  induction steps generalizing session earlier output with
  | nil => rfl
  | cons step rest inductionHypothesis =>
      rw [Session.answers, List.map_cons, ready.step_answer,
        inductionHypothesis (ready.step_ready step)]

theorem Ready.after (steps : List Step) :
    (session.after steps).Ready (steps.foldl Step.held earlier) (steps.foldl Step.shown output) := by
  induction steps generalizing session earlier output with
  | nil => exact ready
  | cons step rest inductionHypothesis => exact inductionHypothesis (ready.step_ready step)

end Session

end ExprWasm.Wat
