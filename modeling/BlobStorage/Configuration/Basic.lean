import BlobStorage.SignPolicy
import BlobStorage.Text.Quoted

namespace BlobStorage

inductive Environment where
  | worldwide
  | china
  | usGovernment
  | germany
  deriving DecidableEq, Repr

namespace Environment

def all : List Environment := [worldwide, china, usGovernment, germany]

def name : Environment → String
  | worldwide => "AzureCloud"
  | china => "AzureChinaCloud"
  | usGovernment => "AzureUSGovernment"
  | germany => "AzureGermanCloud"

def ofName? (s : String) : Option Environment := all.find? (·.name == s)

def endpoint : Environment → String
  | worldwide => "blob.core.windows.net"
  | china => "blob.core.chinacloudapi.cn"
  | usGovernment => "blob.core.usgovcloudapi.net"
  | germany => "blob.core.cloudapi.de"

theorem ofName?_name (e : Environment) : ofName? e.name = some e := by
  cases e <;> rfl

end Environment

-- What has to be known of an account and a container. The timeouts are in seconds.
structure Configuration where
  accountName : String
  accountKey : String
  containerName : String
  environment : Environment
  getTimeout : Nat
  putTimeout : Nat
  deriving DecidableEq, Repr

namespace Configuration

def standardGetTimeout : Nat := 1800

def standardPutTimeout : Nat := 2700

def signPolicy (c : Configuration) : Except Failure SignPolicy :=
  SignPolicy.new (.ofSeconds c.getTimeout) (.ofSeconds c.putTimeout)

-- The names must not be empty and the timeouts have to make a policy.
def validate (c : Configuration) : Except Failure Unit :=
  if c.accountName = "" then .error (.required "account_name")
  else if c.accountKey = "" then .error (.required "account_key")
  else if c.containerName = "" then .error (.required "container_name")
  else c.signPolicy.map fun _ => ()

-- A configuration for people to read. The account key is not shown.
def displayText (c : Configuration) : String :=
  "AzureStorageConfig \x7b account_name: " ++ Text.quoted c.accountName
    ++ ", account_key: \"**********\", container_name: " ++ Text.quoted c.containerName
    ++ ", environment: " ++ c.environment.name ++ ", signed_url_get_timeout: "
    ++ Nat.repr c.getTimeout ++ ", signed_url_put_timeout: " ++ Nat.repr c.putTimeout ++ " \x7d"

end Configuration

end BlobStorage
