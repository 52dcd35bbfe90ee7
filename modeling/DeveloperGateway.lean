import DeveloperGateway.Eth.Request
import DeveloperGateway.Eth.Client
import DeveloperGateway.Eth.Nonce
import DeveloperGateway.Eth.Lifecycle
import DeveloperGateway.Eth.Shutdown
import DeveloperGateway.Eth.Progress
import DeveloperGateway.Eth.Events
import DeveloperGateway.Address
import DeveloperGateway.Noise.Pool
import DeveloperGateway.Json.Utf8
import DeveloperGateway.Json.String
import DeveloperGateway.Json.RoundTrip
import DeveloperGateway.Json.Decode
import DeveloperGateway.Json.Meaning
import DeveloperGateway.Mqueue.Core
import DeveloperGateway.Mqueue.Redis
import DeveloperGateway.Mqueue.Mem
