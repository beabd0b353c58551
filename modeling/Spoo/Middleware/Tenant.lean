import Spoo.Lib.PercentEncoding

/-!
# The gate of a custom domain (`middleware/tenant.py`)

Which paths and methods a custom tenant answers at all.
-/

namespace Spoo

namespace TenantMiddleware

/-- `_ALLOWED_EXACT_PATHS`. -/
def allowedExactPaths : List String := ["/favicon.ico"]

/-- `_RESERVED_PREFIXES`. -/
def reservedPrefixes : List String := [
  "/api", "/dashboard", "/auth", "/oauth", "/health", "/report", "/about", "/contact", "/privacy", "/api-docs",
  "/api-reference"]

/-- The characters of `_ALIAS_PATTERN`. -/
def isAliasPathChar (c : Char) : Bool :=
  c.isAlphanum || c = '_' || c = '-' || decide (c.toNat ∈ [
    0xA9, 0xAE, 0x200D, 0x203C, 0x2049, 0x20E3, 0x2122, 0x2139, 0x3030, 0x303D, 0x3297, 0x3299, 0xFE0E, 0xFE0F]) ||
  decide (0x2190 ≤ c.toNat ∧ c.toNat ≤ 0x2BFF) || decide (0x1F000 ≤ c.toNat ∧ c.toNat ≤ 0x1FAFF) ||
  decide (0xE0020 ≤ c.toNat ∧ c.toNat ≤ 0xE007F)

/-- The pattern behind its first slash, up to the end of the text. -/
def matchesAliasBody (text : List Char) : Bool :=
  let body := text.takeWhile (· ≠ '/')
  let suffix := text.dropWhile (· ≠ '/')
  body ≠ [] && PercentEncoding.isSpelled isAliasPathChar 0 body &&
    (suffix = [] || suffix = "/password".toList)

/-- `_ALIAS_PATTERN.match(path)`: `$` also matches before a final newline. -/
def matchesAliasPattern (path : String) : Bool :=
  match path.toList with
  | '/' :: text =>
    matchesAliasBody text || (text.getLast? = some '\n' && matchesAliasBody text.dropLast)
  | _ => false

/-- `_is_reserved_path` (`tenant.py:136-140`). -/
def isReservedPath (path : String) : Bool :=
  reservedPrefixes.any fun reserved => path = reserved || (reserved ++ "/").toList.isPrefixOf path.toList

/-- `_is_allowed_on_custom_tenant` (`tenant.py:143-160`). -/
def isAllowedOnCustomTenant (path method : String) : Bool :=
  if path = "/" then false
  else if isReservedPath path then false
  else if path ∈ allowedExactPaths then method ∈ ["GET", "HEAD"]
  else if matchesAliasPattern path then
    -- The form posts to `/<alias>/password`, the redirect is read only.
    if "/password".toList.isSuffixOf path.toList then method = "POST" else method ∈ ["GET", "HEAD"]
  else false

end TenantMiddleware

end Spoo
