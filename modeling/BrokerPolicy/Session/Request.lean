import BrokerPolicy.PolicyFile.Loading
import BrokerPolicy.Session.Basic

set_option autoImplicit false

namespace BrokerPolicy

inductive SinkChoice where
  | disabled
  | recorder (namespaceWord : String)
  | own (name : String)

/-- A request names what it is about; results are kept under the name called `result`. -/
inductive Request where
  | set (builder : String) (s : Setting)
  | setSink (builder : String) (choice : SinkChoice)
  | applyToml (builder source : String)
  | applyJson (builder source : String)
  | build (builder result : String)
  | snapshot (builder result : String)
  | copyPolicy (holder result : String)
  | copyBuilder (builder result : String)
  | drop (name : String)
  | setAccepting (executor : String) (accepting : Bool)
  | completedJobs (executor : String)
  | execute (holder : String) (jobs : Nat)
  | look (holder : String)
  | notifyError (holder text : String) (code : Int)
  | notifySuccess (holder : String)
  | notifyHung (holder : String) (messages : List HungMessage)
  | publish (holder : String) (m : Measurement)
  | consume (holder result : String) (d : Delivery)
  | produce (holder result : String) (p : Publish) (headers : FieldTable)
  | respond (context : String) (c : Confirm)
  | endContext (context : String)

inductive Reply where
  | done
  | answered (b : Bool)
  | counted (n : Nat)
  | policy (p : Policy)
  | held (h : Holder)
  | notAvailable
  | refused (e : PolicyError)
  | rejectedFile (e : ConfigError)
  | unreadable (e : Schema.ReadError)
  | noExecutor
  /-- Whether the executor accepts jobs, what became of each, and how many ran. -/
  | executed (accepting : Bool) (results : List (Except ExecutorError Unit)) (ran : Nat)
  | produced (opened : Bool) (headers : FieldTable)
  | noContext

end BrokerPolicy
