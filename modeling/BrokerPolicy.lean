import BrokerPolicy.Main
import BrokerPolicy.Session.Step
import BrokerPolicy.Proofs.Policy.ClientProperties
import BrokerPolicy.Proofs.Policy.TableKeys
import BrokerPolicy.Proofs.Policy.Handoff
import BrokerPolicy.Proofs.CommandLine.Check
import BrokerPolicy.Proofs.Session.Handlers
import BrokerPolicy.Proofs.PolicyFile.Agreement
import BrokerPolicy.Proofs.Field.Json
import BrokerPolicy.Proofs.PolicyFile.Application
import BrokerPolicy.Proofs.PolicyFile.Validation
import BrokerPolicy.Proofs.PolicyFile.Durations
import BrokerPolicy.Proofs.PolicyFile.Editions
import BrokerPolicy.Proofs.PolicyFile.Overlay
import BrokerPolicy.Proofs.Toml.Tree
import BrokerPolicy.Proofs.Toml.Reader
import BrokerPolicy.Proofs.Field.Reading
import BrokerPolicy.Proofs.Schema
import BrokerPolicy.Proofs.PolicyFile.Reader
import BrokerPolicy.Proofs.PolicyFile.Parts
import BrokerPolicy.Proofs.PolicyFile.Effect
import BrokerPolicy.Proofs.PolicyFile.Json
import BrokerPolicy.Proofs.Policy.Tunables
import BrokerPolicy.Proofs.Json.Digits
import BrokerPolicy.Proofs.Json.Legible
import BrokerPolicy.Proofs.Json.Pretty
import BrokerPolicy.Proofs.Numeral.Overflow
import BrokerPolicy.Proofs.Numeral.Decimal
import BrokerPolicy.Proofs.Policy.PropertySetting
import BrokerPolicy.Proofs.Policy.Decisions
import BrokerPolicy.Proofs.Policy.Summary
import BrokerPolicy.Proofs.Session.Records
import BrokerPolicy.Proofs.Session.Spans
import BrokerPolicy.Proofs.Tracing.Recorder
import BrokerPolicy.Proofs.Tracing.Context
import BrokerPolicy.Proofs.Tracing.Balance
import BrokerPolicy.Proofs.Field.Equality
import BrokerPolicy.Proofs.Metrics
import BrokerPolicy.Proofs.Log.Filter
import BrokerPolicy.Proofs.Field.Spelling
import BrokerPolicy.Proofs.Json.Magnitude
import BrokerPolicy.Proofs.PolicyFile.TableOrder
