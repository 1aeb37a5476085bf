import Chronicle.Exchange.Desk
import Chronicle.Exchange.Push

/-!
# Runs

A run carries out operations one after another, each under its own clock and number
of retries. What is true of every store that a run can lead to is said of the
stores that are `Reachable`.
-/

namespace Chronicle

/-- An operation that may change the store. -/
inductive Operation where
  | commit (kind : Kind) (id : EntityId) (proposed : Option Content) (attribution : Attribution)
  | create (kind : Kind) (content : Content) (attribution : Attribution)
  | modify (kind : Kind) (id : EntityId) (attribution : Attribution) (edit : Content → Content)
  | delete (kind : Kind) (id : EntityId) (attribution : Attribution)
  | submit (submission : Submission)
  | resolve (kind : Kind) (id : EntityId) (resolution : Resolution) (actor : Actor)
  | push (producer : String) (body : Json)
  | resolveRequest (kind : Kind) (rawId : String) (body : Json) (actor : Actor)

/-- The store after an operation, whether it is carried out or refused. -/
def Operation.perform (env : Env) (store : Store) : Operation → Store
  | commit kind id proposed attribution => (env.commit kind id proposed attribution store).2
  | create kind content attribution => (env.create kind content attribution store).2
  | modify kind id attribution edit => (env.modify kind id attribution edit store).2
  | delete kind id attribution => (env.delete kind id attribution store).2
  | submit submission => (env.submit submission store).2
  | resolve kind id resolution actor => (env.resolve kind id resolution actor store).2
  | push producer body => (env.push producer body store).2
  | resolveRequest kind rawId body actor => (env.resolveRequest kind rawId body actor store).2

/-- `Run registry first last` says that operations under `registry`, at any clock, with any number
of retries and with any new identifiers, lead from one store to the other. -/
inductive Run (registry : Registry) (first : Store) : Store → Prop where
  | start : Run registry first first
  | step {store : Store} (run : Run registry first store) (retries : Nat) (now : Int64)
      [generator : Generator] (operation : Operation) :
      Run registry first (operation.perform ⟨registry, retries, now⟩ store)

theorem Run.perform {registry : Registry} {first store : Store} (run : Run registry first store)
    {env : Env} (registered : env.registry = registry) (operation : Operation) :
    Run registry first (operation.perform env store) := by
  subst registered
  exact @Run.step env.registry first store run env.retries env.now env.generator operation

/-- The stores that a run can lead to from the empty one. -/
def Reachable (registry : Registry) (store : Store) : Prop := Run registry .empty store

end Chronicle
