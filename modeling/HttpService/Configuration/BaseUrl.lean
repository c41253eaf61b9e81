import HttpService.Configuration.Fault
import HttpService.Url.Any

/-!
# Base URLs

The URL against which the URLs of a service are resolved.  It has neither query nor fragment, and
its path ends with a slash, so that a relative URL can be appended to its text.
-/

namespace HttpService

/-- A web URL without query and fragment whose path ends with a slash. -/
structure BaseUrl where
  url : Url
  query_eq_none : url.query = none
  fragment_eq_none : url.fragment = none
  path_closed : url.path.getLast? = some []

namespace BaseUrl

def text (b : BaseUrl) : String :=
  b.url.text

/-- The base URL of a web URL that was read from `input`.  Of several faults the first counts. -/
def ofUrl (input : String) (url : Url) : Except ConfigurationFault BaseUrl :=
  if hq : url.query = none then
    if hf : url.fragment = none then
      if hp : url.path.getLast? = some [] then .ok ⟨url, hq, hf, hp⟩
      else .error (.missingTrailingSlash input)
    else .error .baseHasFragment
  else .error .baseHasQuery

/-- A base URL from its text.  The text must be a URL; then its scheme, its query, its fragment
and its last slash are looked at in turn. -/
def parse [DomainNames] (input : String) : Except ConfigurationFault BaseUrl :=
  match AnyUrl.parse input with
  | .error e => .error (.invalidBaseUrl input e.message)
  | .ok (.foreign url) => .error (.unsupportedScheme url.scheme)
  | .ok (.web url) => ofUrl input url

end BaseUrl

end HttpService
