import Provenance.Config.Basic
import Provenance.Ledger.Basic
import Provenance.Store.Error
/-!
Errors of a recording session: each names the part that failed and carries
that part's own error.
-/

namespace Provenance

inductive SessionError where
  | config (e : ConfigError)
  | configFile (path : String) (e : Files.IoError)
  | ledger (e : LedgerError)
  | store (e : StoreError)
  | io (e : Files.IoError)
  deriving DecidableEq

namespace SessionError

def message : SessionError → String
  | config e => "invalid configuration: " ++ e.message
  | configFile p e => "cannot read config file " ++ p ++ ": " ++ e.message
  | ledger e => "ledger error: " ++ e.message
  | store e => "store error: " ++ e.message
  | io e => "I/O error: " ++ e.message

def kind : SessionError → String
  | config _ => "Config"
  | configFile _ _ => "ConfigFile"
  | ledger _ => "Ledger"
  | store _ => "Store"
  | io _ => "Io"

def causes : SessionError → List String
  | config _ => []
  | configFile _ e => [e.message]
  | ledger e => e.message :: e.causes
  | store e => e.message :: e.causes
  | io e => [e.message]

end SessionError

end Provenance
