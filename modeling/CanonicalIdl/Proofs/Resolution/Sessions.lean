import CanonicalIdl.Proofs.Resolution.Memory

/-!
# Sessions

As long as a chain is in use, one counter says how many of its calls are under way, and one
list says which aliases are being expanded.  Every call changes them, and so may the calls
inside it, and each has to put back what it found.  A session is the state that the calls of a
chain hand on to one another.  It also takes a note of every call that has ended, and of every
text on which a rule of the caller has been tried; without counter and notes it is a run.

Main results:

- Theorem `follows_perform`: a script does within a session what it does within a run.
- Theorem `agrees_callWithin`: a call comes to what resolution comes to at the levels that are
  left, and neither it nor a call inside it leaves anything behind.
- Theorem `calls_independent`: no call depends on what has been resolved before it.
-/

namespace CanonicalIdl

open Text

/-! ## Calls -/

/-- What a call finds and has to put back: how many calls are under way, and which aliases of
which tables are being expanded. -/
structure Surroundings where
  depth : Nat
  expanding : List (Nat × String)
  deriving Repr, DecidableEq

/-- A call that has ended: its text and its tree, what it found and what it left. -/
structure Call where
  text : List Char
  tree : TypeTree
  found : Surroundings
  left : Surroundings
  deriving Repr, DecidableEq

/-- What the calls of a chain hand on to one another. -/
structure Session where
  run : Run
  /-- How many calls are under way. -/
  depth : Nat
  /-- The calls that have ended, in order. -/
  calls : List Call
  /-- The texts on which rules of the caller have been tried, in order. -/
  tried : List (List Char)

namespace Session

/-- A run has come about, and no call is under way. -/
def ofRun (run : Run) : Session := ⟨run, 0, [], []⟩

/-- What a call finds that begins now. -/
def surroundings (session : Session) : Surroundings := ⟨session.depth, session.run.expanding⟩

/-- The run changes. -/
def mapRun (session : Session) (change : Run → Run) : Session :=
  { session with run := change session.run }

/-- A call is under way. -/
def enter (session : Session) : Session := { session with depth := session.depth + 1 }

/-- A call is no longer under way. -/
def leave (session : Session) : Session := { session with depth := session.depth - 1 }

/-- A rule of the caller is tried on a text. -/
def consult (session : Session) (text : List Char) : Session :=
  { session with tried := session.tried ++ [text] }

/-- Take a note of a call that has come to its outcome. -/
def note (before : Session) (text : List Char) (outcome : TypeTree × Session) :
    TypeTree × Session :=
  let call : Call := ⟨text, outcome.1, before.surroundings, outcome.2.surroundings⟩
  (outcome.1, { outcome.2 with calls := outcome.2.calls ++ [call] })

end Session

/-- A way to resolve expressions within a session. -/
abbrev SessionResolver := List Char → Session → TypeTree × Session

/-- Carry out a script within a session, its expressions resolved by `resolver`. -/
def Script.perform {α : Type} (resolver : SessionResolver) : Script α → Session → α × Session
  | .done a, session => (a, session)
  | .resolve expression next, session =>
    let (tree, session) := resolver expression session
    (next tree).perform resolver session
  | .register definition next, session =>
    next.perform resolver (session.mapRun (·.register definition))
  | .warn warning next, session => next.perform resolver (session.mapRun (·.warn warning))

/-- A script that goes on after another one is performed after it. -/
theorem Script.perform_bind {α β : Type} (resolver : SessionResolver) (script : Script α)
    (f : α → Script β) (session : Session) :
    (script.bind f).perform resolver session =
      (f (script.perform resolver session).1).perform resolver
        (script.perform resolver session).2 := by
  induction script generalizing session with
  | done a => rfl
  | resolve expression next ih => exact ih _ _
  | register definition next ih => exact ih _
  | warn warning next ih => exact ih _

namespace Chain

/-- Try rules one after another. -/
def attemptEach : List (Session → Option TypeTree × Session) → Session → Option TypeTree × Session
  | [], session => (none, session)
  | first :: rest, session =>
    match first session with
    | (some tree, session) => (some tree, session)
    | (none, session) => attemptEach rest session

/-- Try a rule of the caller. -/
def attemptRule (resolver : SessionResolver) (text : List Char) (rule : Matcher)
    (session : Session) : Option TypeTree × Session :=
  (rule text).perform resolver (session.consult text)

/-- Resolve the expression that a name stands for in the table at a place, the name being on the
list of the aliases being expanded for as long as that takes. -/
def attemptAlias (resolver : SessionResolver) (text : List Char) (place : Nat)
    (table : AliasTable) (session : Session) : Option TypeTree × Session :=
  let name := String.ofList text
  match table.lookup name with
  | none => (none, session)
  | some target =>
    if session.run.expanding.contains (place, name) then (none, session)
    else
      let (tree, session) := resolver target.toList
        (session.mapRun fun run => { run with expanding := (place, name) :: run.expanding })
      (some tree, session.mapRun fun run => { run with expanding := run.expanding.tail })

/-- Try the extension at a place. -/
def attemptExtension (resolver : SessionResolver) (text : List Char) :
    Extension × Nat → Session → Option TypeTree × Session
  | (.matcher rule, _), session => attemptRule resolver text rule session
  | (.aliases table, place), session =>
    attemptAlias resolver text place table (session.consult text)

/-- Decide on a trimmed expression within a session. -/
def decideWithin (chain : Chain) (resolver : SessionResolver) (text : List Char)
    (session : Session) : TypeTree × Session :=
  match chain.table.lookup? text with
  | some tree => (tree, session)
  | none =>
    match attemptEach (chain.builtins.map fun builtin => (builtin.matcher text).perform resolver)
        session with
    | (some tree, session) => (tree, session)
    | (none, session) =>
      match attemptEach (chain.extensions.zipIdx.map (attemptExtension resolver text)) session with
      | (some tree, session) => (tree, session)
      | (none, session) =>
        match attemptEach (chain.fallback.toList.map (attemptRule resolver text)) session with
        | (some tree, session) => (tree, session)
        | (none, session) => (referenceScript text).perform resolver session

/-- Keep a text as it stands. -/
def refuse (text : List Char) (session : Session) : TypeTree × Session :=
  (.bare (String.ofList (trim text)), session.mapRun (·.warn .nestedTooDeep))

/-- A call.  It is refused where as many calls are under way as resolution follows; else it is
under way until its text is decided on.  The number only bounds the recursion: no call comes to
its end. -/
def callWithin (chain : Chain) : Nat → SessionResolver
  | 0, text, session => session.note text (refuse text session)
  | bound + 1, text, session =>
    session.note text <|
      if session.depth < depthLimit then
        let (tree, session) :=
          chain.decideWithin (chain.callWithin bound) (trim text) session.enter
        (tree, session.leave)
      else refuse text session

/-- A call of a chain. -/
def call (chain : Chain) : SessionResolver := chain.callWithin depthLimit

end Chain

/-! ## Sessions and runs -/

/-- A call leaves what it found, and its tree is that of the same text with the same
surroundings in a run in which nothing else has happened. -/
structure Call.IsIndependent (chain : Chain) (call : Call) : Prop where
  left : call.left = call.found
  tree : call.tree = (chain.resolveWithin (Chain.depthLimit - call.found.depth) call.text
    { Run.start with expanding := call.found.expanding }).1

section Agreement

variable (chain : Chain) {α β : Type}

/-- A part of a session comes to the same as a part of a run.  It leaves as many calls under way
as before, and all calls inside it are independent. -/
structure Agrees (session : Session) (outcome : α × Session) (plain : α × Run) : Prop where
  result : outcome.1 = plain.1
  run : outcome.2.run = plain.2
  depth : outcome.2.depth = session.depth
  calls : ∃ inner, outcome.2.calls = session.calls ++ inner ∧
    ∀ call ∈ inner, call.IsIndependent chain

/-- Where so many calls are under way, a part of a session does what a part of a run does. -/
def Follows (depth : Nat) (part : Session → α × Session) (plain : Run → α × Run) : Prop :=
  ∀ session, session.depth = depth → Agrees chain session (part session) (plain session.run)

variable {chain} {session : Session} {depth : Nat}

namespace Agrees

/-- A part leaves the surroundings as they were if the part of the run leaves the aliases being
expanded as they were. -/
theorem surroundings_eq {outcome : α × Session} {plain : α × Run}
    (h : Agrees chain session outcome plain) (hplain : plain.2.expanding = session.run.expanding) :
    outcome.2.surroundings = session.surroundings := by
  rw [Session.surroundings, Session.surroundings, h.depth, h.run, hplain]

theorem refl (a : α) : Agrees chain session (a, session) (a, session.run) :=
  ⟨rfl, rfl, rfl, [], (List.append_nil _).symm, List.forall_mem_nil _⟩

/-- A part and what follows it. -/
theorem andThen {first : α × Session} {plainFirst : α × Run} {second : β × Session}
    {plainSecond : β × Run} (hfirst : Agrees chain session first plainFirst)
    (hsecond : Agrees chain first.2 second plainSecond) :
    Agrees chain session second plainSecond where
  result := hsecond.result
  run := hsecond.run
  depth := hsecond.depth.trans hfirst.depth
  calls := by
    obtain ⟨inner, hinner, hindependent⟩ := hfirst.calls
    obtain ⟨further, hfurther, hrest⟩ := hsecond.calls
    refine ⟨inner ++ further, ?_, List.forall_mem_append.mpr ⟨hindependent, hrest⟩⟩
    rw [hfurther, hinner, List.append_assoc]

end Agrees

namespace Follows

theorem pure (a : α) : Follows chain depth (fun session => (a, session)) fun run => (a, run) :=
  fun _ _ => .refl a

/-- A part that goes on with what another one came to. -/
theorem andThen {first : Session → α × Session} {plainFirst : Run → α × Run}
    {second : α → Session → β × Session} {plainSecond : α → Run → β × Run}
    (hfirst : Follows chain depth first plainFirst)
    (hsecond : ∀ a, Follows chain depth (second a) (plainSecond a)) :
    Follows chain depth (fun session => second (first session).1 (first session).2)
      fun run => plainSecond (plainFirst run).1 (plainFirst run).2 := by
  intro session hsession
  have hone := hfirst session hsession
  have hnext := hsecond (first session).1 (first session).2 (hone.depth.trans hsession)
  dsimp only
  rw [← hone.result, ← hone.run]
  exact hone.andThen hnext

/-- A part that first tells the run something. -/
theorem after {part : Session → α × Session} {plain : Run → α × Run}
    (hpart : Follows chain depth part plain) (change : Run → Run) :
    Follows chain depth (fun session => part (session.mapRun change))
      fun run => plain (change run) := by
  intro session hsession
  have hagrees := hpart (session.mapRun change) hsession
  exact ⟨hagrees.result, hagrees.run, hagrees.depth, hagrees.calls⟩

/-- A part that is noted as one of the caller's. -/
theorem consult {part : Session → α × Session} {plain : Run → α × Run}
    (hpart : Follows chain depth part plain) (text : List Char) :
    Follows chain depth (fun session => part (session.consult text)) plain := by
  intro session hsession
  have hagrees := hpart (session.consult text) hsession
  exact ⟨hagrees.result, hagrees.run, hagrees.depth, hagrees.calls⟩

/-- An attempt, and if it comes to nothing something else. -/
theorem orElse {first : Session → Option TypeTree × Session}
    {plainFirst : Run → Option TypeTree × Run} {second : Session → α × Session}
    {plainSecond : Run → α × Run} (accept : TypeTree → α)
    (hfirst : Follows chain depth first plainFirst)
    (hsecond : Follows chain depth second plainSecond) :
    Follows chain depth
      (fun session =>
        match first session with
        | (some tree, session) => (accept tree, session)
        | (none, session) => second session)
      fun run =>
        match plainFirst run with
        | (some tree, run) => (accept tree, run)
        | (none, run) => plainSecond run := by
  intro session hsession
  have hone := hfirst session hsession
  dsimp only
  revert hone
  rcases first session with ⟨found, after⟩
  rcases plainFirst session.run with ⟨plainFound, plainAfter⟩
  intro hone
  obtain rfl : found = plainFound := hone.result
  obtain rfl : after.run = plainAfter := hone.run
  cases found with
  | some tree => exact ⟨rfl, rfl, hone.depth, hone.calls⟩
  | none => exact hone.andThen (hsecond after (hone.depth.trans hsession))

end Follows

end Agreement

section Rules

variable {chain : Chain} {depth : Nat} {resolver : SessionResolver} {plain : Resolver}
  (hresolver : ∀ text, Follows chain depth (resolver text) (plain text))

include hresolver

/-- A script does within a session what it does within a run. -/
theorem follows_perform {α : Type} (script : Script α) :
    Follows chain depth (script.perform resolver) (script.run plain) := by
  induction script with
  | done a => exact .pure a
  | resolve expression next ih => exact (hresolver expression).andThen ih
  | register definition next ih => exact ih.after (·.register definition)
  | warn warning next ih => exact ih.after (·.warn warning)

namespace Chain

omit hresolver in
theorem follows_attemptEach (text : List Char)
    {attempt : Matcher → Session → Option TypeTree × Session}
    (h : ∀ rule, Follows chain depth (attempt rule) ((rule text).run plain))
    (rules : List Matcher) :
    Follows chain depth (attemptEach (rules.map attempt)) (tryMatchers plain rules text) := by
  induction rules with
  | nil => exact .pure none
  | cons rule rest ih => exact .orElse some (h rule) ih

theorem follows_attemptRule (text : List Char) (rule : Matcher) :
    Follows chain depth (attemptRule resolver text rule) ((rule text).run plain) :=
  (follows_perform hresolver (rule text)).consult text

/-- An alias is struck off the list when its expression has been resolved. -/
theorem follows_attemptAlias (text : List Char) (place : Nat) (table : AliasTable) :
    Follows chain depth (attemptAlias resolver text place table)
      (expandAlias plain place table text) := by
  intro session hsession
  cases htarget : table.lookup (String.ofList text) with
  | none =>
    simp only [attemptAlias, expandAlias, htarget]
    exact .refl none
  | some target =>
    by_cases hopened : session.run.expanding.contains (place, String.ofList text) = true
    · simp only [attemptAlias, expandAlias, htarget, if_pos hopened]
      exact .refl none
    · simp only [attemptAlias, expandAlias, htarget, if_neg hopened]
      have hinside := hresolver target.toList
        (session.mapRun fun run =>
          { run with expanding := (place, String.ofList text) :: run.expanding })
        hsession
      refine ⟨congrArg some hinside.result, ?_, hinside.depth, hinside.calls⟩
      exact congrArg (fun run : Run => { run with expanding := run.expanding.tail }) hinside.run

theorem follows_attemptExtension (text : List Char) (extension : Extension) (place : Nat) :
    Follows chain depth (attemptExtension resolver text (extension, place))
      (tryExtension plain place extension text) := by
  cases extension with
  | matcher rule => exact follows_attemptRule hresolver text rule
  | aliases table => exact (follows_attemptAlias hresolver text place table).consult text

theorem follows_attemptExtensions (text : List Char) (extensions : List Extension)
    (place : Nat) :
    Follows chain depth
      (attemptEach ((extensions.zipIdx place).map (attemptExtension resolver text)))
      (tryExtensions plain place extensions text) := by
  induction extensions generalizing place with
  | nil => exact .pure none
  | cons extension rest ih =>
    rw [List.zipIdx_cons, List.map_cons]
    exact .orElse some (follows_attemptExtension hresolver text extension place) (ih (place + 1))

/-- Deciding within a session does what deciding within a run does. -/
theorem follows_decideWithin (other : Chain) (text : List Char) :
    Follows chain depth (other.decideWithin resolver text) (other.decideOn plain text) := by
  have hbuiltins := follows_attemptEach text
    (fun rule => follows_perform hresolver (rule text)) (other.builtins.map Builtin.matcher)
  rw [List.map_map] at hbuiltins
  have hextensions := follows_attemptExtensions hresolver text other.extensions 0
  have hfallback := follows_attemptEach text (follows_attemptRule hresolver text)
    other.fallback.toList
  have hreference := follows_perform hresolver (referenceScript text)
  intro session hsession
  cases hword : other.table.lookup? text with
  | some tree =>
    simp only [decideWithin, decideOn, hword]
    exact .refl tree
  | none =>
    simp only [decideWithin, decideOn, hword]
    exact hbuiltins.orElse id (hextensions.orElse id (hfallback.orElse id hreference))
      session hsession

end Chain

end Rules

/-! ## Calls leave nothing behind -/

namespace Chain

/-- A refusal is what resolution comes to where no level is left. -/
theorem agrees_refuse (chain : Chain) (text : List Char) (session : Session) :
    Agrees chain session (refuse text session) (chain.resolveWithin 0 text session.run) :=
  ⟨rfl, rfl, rfl, [], (List.append_nil _).symm, List.forall_mem_nil _⟩

/-- A call whose outcome agrees with that of a resolution is independent itself. -/
theorem agrees_note {chain : Chain} {session : Session} {text : List Char}
    {outcome : TypeTree × Session}
    (h : Agrees chain session outcome
      (chain.resolveWithin (depthLimit - session.depth) text session.run)) :
    Agrees chain session (session.note text outcome)
      (chain.resolveWithin (depthLimit - session.depth) text session.run) := by
  have hforget := chain.forgetful_resolveWithin (depthLimit - session.depth) text
  have hleft := h.surroundings_eq (hforget.expanding session.run)
  refine ⟨h.result, h.run, h.depth, ?_⟩
  obtain ⟨inner, hinner, hindependent⟩ := h.calls
  refine ⟨inner ++ [⟨text, outcome.1, session.surroundings, outcome.2.surroundings⟩], ?_, ?_⟩
  · rw [Session.note, hinner, List.append_assoc]
  · rw [List.forall_mem_append, List.forall_mem_singleton]
    exact ⟨hindependent, hleft, h.result.trans (hforget.result rfl)⟩

/-- A call comes to what resolution comes to at the levels that are left, and it and all calls
inside it are independent. -/
theorem agrees_callWithin (chain : Chain) {bound : Nat} (text : List Char) (session : Session)
    (h : depthLimit ≤ session.depth + bound) :
    Agrees chain session (chain.callWithin bound text session)
      (chain.resolveWithin (depthLimit - session.depth) text session.run) := by
  induction bound generalizing text session with
  | zero =>
    have hlevels : depthLimit - session.depth = 0 := by omega
    refine agrees_note ?_
    rw [hlevels]
    exact agrees_refuse chain text session
  | succ bound ih =>
    refine agrees_note ?_
    by_cases hdepth : session.depth < depthLimit
    · -- One level is spent on the text, so that the calls inside it find the rest.
      obtain ⟨levels, hlevels⟩ := Nat.exists_eq_add_of_lt hdepth
      have hspent : depthLimit - session.depth = levels + 1 := by omega
      have hinside : ∀ part, Follows chain (session.depth + 1) (chain.callWithin bound part)
          (chain.resolveWithin levels part) := by
        intro part inner hinner
        have hleft : depthLimit - inner.depth = levels := by omega
        have hpart := ih part inner (by omega)
        rwa [hleft] at hpart
      have hdecide := follows_decideWithin hinside chain (trim text) session.enter rfl
      rw [if_pos hdepth, hspent, resolveWithin_succ]
      refine ⟨hdecide.result, hdecide.run, ?_, hdecide.calls⟩
      exact congrArg (· - 1) hdecide.depth
    · have hlevels : depthLimit - session.depth = 0 := by omega
      rw [if_neg hdepth, hlevels]
      exact agrees_refuse chain text session

theorem agrees_call (chain : Chain) (text : List Char) (session : Session) :
    Agrees chain session (chain.call text session)
      (chain.resolveWithin (depthLimit - session.depth) text session.run) :=
  chain.agrees_callWithin text session (Nat.le_add_left _ _)

/-- Where no other call is under way, a call does what a resolution does. -/
theorem follows_call (chain : Chain) (text : List Char) :
    Follows chain 0 (chain.call text) (chain.resolve text) := by
  intro session hsession
  have hcall := chain.agrees_call text session
  rwa [hsession, Nat.sub_zero] at hcall

/-- Resolution has no memory.  Whatever a call finds, it leaves the number of calls under way
and the aliases being expanded as they were, and so does every call inside it, also one that is
refused and one that declines an alias; and the tree of each is that of a run in which nothing
else has happened.  So calls one after another, in a session in which anything may have been
registered before, come to the trees that their texts have in runs of their own, and together
they do what the resolutions do one after another. -/
theorem calls_independent (chain : Chain) :
    (∀ (text : List Char) (session : Session),
      (chain.call text session).2.surroundings = session.surroundings ∧
        ∃ inner, (chain.call text session).2.calls = session.calls ++ inner ∧
          ∀ call ∈ inner, call.IsIndependent chain) ∧
    ∀ (texts : List String) (run : Run),
      let before : Run := { run with expanding := [] }
      let calls := Script.askEach (texts.map String.toList)
      (calls.perform chain.call (.ofRun before)).1 = texts.map chain.resolved ∧
        (calls.perform chain.call (.ofRun before)).2.surroundings = ⟨0, []⟩ ∧
        (calls.perform chain.call (.ofRun before)).2.run = (calls.run chain.resolve before).2 := by
  constructor
  · intro text session
    have hcall := chain.agrees_call text session
    have hforget := chain.forgetful_resolveWithin (depthLimit - session.depth) text
    exact ⟨hcall.surroundings_eq (hforget.expanding session.run), hcall.calls⟩
  · intro texts run before calls
    have hcalls := follows_perform chain.follows_call calls (.ofRun before) rfl
    have hbefore : before.expanding = [] := rfl
    obtain ⟨hvalue, hexpanding⟩ := calls.run_of_readsAs chain.readsAs_resolve hbefore
    refine ⟨?_, hcalls.surroundings_eq hexpanding, hcalls.run⟩
    rw [hcalls.result]
    refine hvalue.trans ?_
    simp only [calls, Script.askEach, Script.value_each, Script.value_ask, List.map_map]
    rfl

/-- An alias that leads back to itself is declined inside its own expression, and each of the
three calls puts back what it found. -/
example :
    (({ standard with extensions := [.aliases [("Loop", "Option<Loop>")]] } : Chain).call
      "Loop".toList (.ofRun .start)).2.calls =
      [⟨"Loop".toList, .bare "Loop", ⟨2, [(0, "Loop")]⟩, ⟨2, [(0, "Loop")]⟩⟩,
        ⟨"Option<Loop>".toList, .option (.bare "Loop"), ⟨1, [(0, "Loop")]⟩, ⟨1, [(0, "Loop")]⟩⟩,
        ⟨"Loop".toList, .option (.bare "Loop"), ⟨0, []⟩, ⟨0, []⟩⟩] := by
  decide

end Chain

end CanonicalIdl
