import HttpService.Text.Quoted

/-!
# Faults of a configuration

Everything that can be wrong before the first call: the base URL, a setting of the environment, or
a setting that no client can be built from.
-/

namespace HttpService

inductive ConfigurationFault
  | invalidBaseUrl (url reason : String)
  | unsupportedScheme (scheme : String)
  | baseHasQuery
  | baseHasFragment
  | missingTrailingSlash (url : String)
  | invalidSetting (name expected value : String)
  | missingSetting (name : String)
  | unusableClient (reason : String)
  deriving DecidableEq, Repr

def ConfigurationFault.message : ConfigurationFault → String
  | .invalidBaseUrl url reason => "base URL " ++ Text.quoted url ++ " is invalid: " ++ reason
  | .unsupportedScheme scheme => "base URL must use http or https, got " ++ Text.quoted scheme
  | .baseHasQuery => "base URL must not have a query string"
  | .baseHasFragment => "base URL must not have a fragment"
  | .missingTrailingSlash url => "base URL must end with '/', got " ++ Text.quoted url
  | .invalidSetting name expected value =>
    name ++ " must be " ++ expected ++ ", got " ++ Text.quoted value
  | .missingSetting name => name ++ " is not set"
  | .unusableClient reason => "could not build HTTP client: " ++ reason

end HttpService
