import TextTemplate.Proofs.Node.Alike
import TextTemplate.Rendering

/-! # What rendering depends on

The text of nodes depends on what the data has under the names that the nodes read, and on the
results of the methods that they call. Names that a loop binds are not read from the data inside it.
Two runs keep the same loop variables all the way: the values that a loop runs through are the same
in both. -/

namespace TextTemplate

/-! ### Environments -/

/-- A path starts from the name before its first dot. -/
theorem exists_pathSegments (path : List Char) :
    ∃ rest, pathSegments path = path.takeWhile (· ≠ '.') :: rest := by
  induction path with
  | nil => exact ⟨[], rfl⟩
  | cons c path ih =>
      obtain ⟨rest, same⟩ := ih
      by_cases isDot : c = '.'
      · exact ⟨pathSegments path, by simp [pathSegments, isDot]⟩
      · exact ⟨rest, by simp [pathSegments, isDot, same]⟩

namespace Environment

variable {bound : List String} {env env' : Environment}

/-- The value at a path depends on the name that it starts from. -/
theorem resolve_congr {path : String} (same : env'.get? (pathRoot path) = env.get? (pathRoot path)) :
    env'.resolve path = env.resolve path := by
  obtain ⟨rest, segments⟩ := exists_pathSegments path.toList
  rw [pathRoot] at same
  simp only [resolve, segments, List.map_cons, same]

/-- Whether two environments have the same loop variables, and variables of all bound names. -/
structure Agree (bound : List String) (env env' : Environment) : Prop where
  scopes : env'.scopes = env.scopes
  defined : ∀ name ∈ bound, (env.scopes.findSome? (Value.field? name)).isSome = true

/-- Outside of loops there are no variables, so any two environments agree. -/
theorem agree_ofData (data data' : Value) : Agree [] (ofData data) (ofData data') where
  scopes := rfl
  defined := nofun

/-- A name is the same when it is bound or the data has the same under it. -/
theorem Agree.get?_eq (agree : Agree bound env env') {name : String}
    (same : name ∉ bound → env'.data.segment? name = env.data.segment? name) :
    env'.get? name = env.get? name := by
  rw [get?, get?, agree.scopes]
  by_cases isBound : name ∈ bound
  · obtain ⟨value, found⟩ := Option.isSome_iff_exists.mp (agree.defined name isBound)
    rw [found, Option.some_or, Option.some_or]
  · rw [same isBound]

/-- A new loop has no variables yet. -/
theorem Agree.push (agree : Agree bound env env') : Agree bound env.push env'.push where
  scopes := by rw [Environment.push, Environment.push, agree.scopes]
  defined := by simpa [Environment.push, Value.field?] using agree.defined

/-- The innermost loop gets a variable. -/
theorem Agree.define (agree : Agree bound env env') (inLoop : env.scopes ≠ []) (name : String)
    (value : Value) : Agree (name :: bound) (env.define name value) (env'.define name value) := by
  obtain ⟨scope, outer, inside⟩ := List.exists_cons_of_ne_nil inLoop
  have defined := agree.defined
  have scopes := agree.scopes
  rw [inside] at defined scopes
  refine ⟨by simp only [Environment.define, inside, scopes], fun other isBound => ?_⟩
  simp only [Environment.define, inside, List.findSome?_cons, Value.field?]
  by_cases isName : name = other
  · rw [if_pos isName]
    rfl
  · rw [if_neg isName, ← List.findSome?_cons]
    exact defined other ((List.mem_cons.mp isBound).resolve_left (Ne.symm isName))

/-- Inside a loop its variables are bound, too. -/
theorem Agree.enter (agree : Agree bound env env') (item : String) (index : Option String)
    (entry : Value × Value) :
    Agree (item :: index.toList ++ bound) (env.enter item index entry)
      (env'.enter item index entry) := by
  have inner := agree.push.define (List.cons_ne_nil _ _) item entry.1
  cases index with
  | none => exact inner
  | some index =>
      have both := inner.define (List.cons_ne_nil _ _) index entry.2
      exact ⟨both.scopes, fun name isBound => both.defined name (by simpa [or_left_comm] using isBound)⟩

/-- Loop variables leave the data as they are. -/
@[simp] theorem data_enter (item : String) (index : Option String) (entry : Value × Value) :
    (env.enter item index entry).data = env.data := by
  cases index <;> rfl

end Environment

variable {env env' : Environment} {methods methods' : Registry}

/-! ### Values -/

namespace Expr

mutual

/-- The value of an expression depends on the names that it reads and the methods that it calls. -/
theorem Alike.eval_eq : {expr expr' : Expr} → Alike Eq expr expr' →
    (∀ name ∈ expr.roots, env'.get? name = env.get? name) →
    (∀ name ∈ expr.calls, ∀ arguments,
      methods'.call? name arguments = methods.call? name arguments) →
    expr'.eval env' methods' = expr.eval env methods
  | _, _, .number values, _, _ => by rw [eval, eval, values]
  | _, _, .text, _, _ | _, _, .boolean, _, _ => rfl
  | _, _, .array items, names, calls => by rw [eval, eval, items.eval_eq names calls]
  | _, _, .variable, names, _ => Environment.resolve_congr (names _ (List.mem_singleton_self _))
  | _, _, .binary left right, names, calls => by
      obtain ⟨leftNames, rightNames⟩ := List.forall_mem_append.mp names
      obtain ⟨leftCalls, rightCalls⟩ := List.forall_mem_append.mp calls
      rw [eval, eval, left.eval_eq leftNames leftCalls, right.eval_eq rightNames rightCalls]
  | _, _, .unary operand, names, calls => by rw [eval, eval, operand.eval_eq names calls]
  | _, _, .call arguments, names, calls => by
      obtain ⟨here, inside⟩ := List.forall_mem_cons.mp calls
      rw [eval, eval, arguments.eval_eq names inside, here]
  | _, _, .member object key, names, calls => by
      obtain ⟨objectNames, keyNames⟩ := List.forall_mem_append.mp names
      obtain ⟨objectCalls, keyCalls⟩ := List.forall_mem_append.mp calls
      rw [eval, eval, object.eval_eq objectNames objectCalls, key.eval_eq keyNames keyCalls]

/-- The same holds of the expressions of a list. -/
theorem AllAlike.eval_eq : {exprs exprs' : List Expr} → AllAlike Eq exprs exprs' →
    (∀ name ∈ rootsOfList exprs, env'.get? name = env.get? name) →
    (∀ name ∈ callsOfList exprs, ∀ arguments,
      methods'.call? name arguments = methods.call? name arguments) →
    evalList env' methods' exprs' = evalList env methods exprs
  | _, _, .nil, _, _ => rfl
  | _, _, .cons first rest, names, calls => by
      obtain ⟨firstNames, restNames⟩ := List.forall_mem_append.mp names
      obtain ⟨firstCalls, restCalls⟩ := List.forall_mem_append.mp calls
      rw [evalList, evalList, first.eval_eq firstNames firstCalls, rest.eval_eq restNames restCalls]

end

/-- Inside of loops an expression reads the names that are not bound from the data. -/
theorem Alike.eval_eq_of_agree {bound : List String} {expr expr' : Expr}
    (alike : Alike Eq expr expr') (agree : Environment.Agree bound env env')
    (names : ∀ name ∈ expr.roots.filter (!bound.contains ·),
      env'.data.segment? name = env.data.segment? name)
    (calls : ∀ name ∈ expr.calls, ∀ arguments,
      methods'.call? name arguments = methods.call? name arguments) :
    expr'.eval env' methods' = expr.eval env methods :=
  alike.eval_eq (fun name isRoot => agree.get?_eq fun notBound =>
    names name (List.mem_filter.mpr ⟨isRoot, by simpa using notBound⟩)) calls

end Expr

/-! ### Texts -/

namespace Node

mutual

/-- The text of a node depends on the names that it reads and the methods that it calls. -/
theorem Alike.render_eq : {bound : List String} → {env env' : Environment} → {node node' : Node} →
    Alike Eq node node' → Environment.Agree bound env env' →
    (∀ name ∈ reads bound node, env'.data.segment? name = env.data.segment? name) →
    (∀ name ∈ calls node, ∀ arguments,
      methods'.call? name arguments = methods.call? name arguments) →
    render methods' env' node' = render methods env node
  | _, _, _, _, _, .text, _, _, _ | _, _, _, _, _, .comment, _, _, _ => rfl
  | _, _, _, _, _, .interpolation expr, agree, names, calls => by
      rw [render, render, expr.eval_eq_of_agree agree names calls]
  | _, _, _, _, _, .loop source body, agree, names, calls => by
      obtain ⟨sourceNames, bodyNames⟩ := List.forall_mem_append.mp names
      obtain ⟨sourceCalls, bodyCalls⟩ := List.forall_mem_append.mp calls
      rw [render, render, source.eval_eq_of_agree agree sourceNames sourceCalls]
      -- The entries are the same in both runs, so every pass through the body enters the same
      -- variables.
      congr 1
      funext entry
      exact body.render_eq (agree.enter _ _ entry) (by simpa using bodyNames) bodyCalls
  | _, _, _, _, _, .choice branches otherwise, agree, names, calls => by
      obtain ⟨branchNames, elseNames⟩ := List.forall_mem_append.mp names
      obtain ⟨branchCalls, elseCalls⟩ := List.forall_mem_append.mp calls
      rw [render, render, branches.render_eq agree branchNames branchCalls,
        otherwise.render_eq agree elseNames elseCalls]

/-- The same holds of nodes one after the other. -/
theorem AllAlike.render_eq : {bound : List String} → {env env' : Environment} →
    {nodes nodes' : List Node} → AllAlike Eq nodes nodes' → Environment.Agree bound env env' →
    (∀ name ∈ readsOfList bound nodes, env'.data.segment? name = env.data.segment? name) →
    (∀ name ∈ callsOfList nodes, ∀ arguments,
      methods'.call? name arguments = methods.call? name arguments) →
    renderList methods' env' nodes' = renderList methods env nodes
  | _, _, _, _, _, .nil, _, _, _ => rfl
  | _, _, _, _, _, .cons first rest, agree, names, calls => by
      obtain ⟨firstNames, restNames⟩ := List.forall_mem_append.mp names
      obtain ⟨firstCalls, restCalls⟩ := List.forall_mem_append.mp calls
      rw [renderList, renderList, first.render_eq agree firstNames firstCalls,
        rest.render_eq agree restNames restCalls]

/-- The same holds of branches: in both runs the same condition is the first that holds. -/
theorem BranchesAlike.render_eq : {bound : List String} → {env env' : Environment} →
    {branches branches' : List (Expr × List Node)} → BranchesAlike Eq branches branches' →
    Environment.Agree bound env env' →
    (∀ name ∈ readsOfBranches bound branches, env'.data.segment? name = env.data.segment? name) →
    (∀ name ∈ callsOfBranches branches, ∀ arguments,
      methods'.call? name arguments = methods.call? name arguments) →
    renderBranches methods' env' branches' = renderBranches methods env branches
  | _, _, _, _, _, .nil, _, _, _ => rfl
  | _, _, _, _, _, .cons condition body rest, agree, names, calls => by
      obtain ⟨names, restNames⟩ := List.forall_mem_append.mp names
      obtain ⟨conditionNames, bodyNames⟩ := List.forall_mem_append.mp names
      obtain ⟨calls, restCalls⟩ := List.forall_mem_append.mp calls
      obtain ⟨conditionCalls, bodyCalls⟩ := List.forall_mem_append.mp calls
      rw [renderBranches, renderBranches,
        condition.eval_eq_of_agree agree conditionNames conditionCalls,
        body.render_eq agree bodyNames bodyCalls, rest.render_eq agree restNames restCalls]

/-- The same holds of the last branch. -/
theorem ElseAlike.render_eq : {bound : List String} → {env env' : Environment} →
    {otherwise otherwise' : Option (List Node)} → ElseAlike Eq otherwise otherwise' →
    Environment.Agree bound env env' →
    (∀ name ∈ readsOfElse bound otherwise, env'.data.segment? name = env.data.segment? name) →
    (∀ name ∈ callsOfElse otherwise, ∀ arguments,
      methods'.call? name arguments = methods.call? name arguments) →
    renderElse methods' env' otherwise' = renderElse methods env otherwise
  | _, _, _, _, _, .none, _, _, _ => rfl
  | _, _, _, _, _, .some body, agree, names, calls => body.render_eq agree names calls

end

end Node

end TextTemplate
